import IotHome.Firmware.Httpd
import IotHome.Proofs.ApiParams
import IotHome.Lib.Runs

/-!
# Which connection a response goes to

The response travels from one callback to the other in a global, so what a
connection is sent is the response of whichever request ran last. That is its
own as long as no other request for `/api` runs between its two steps.

A schedule is the order of the steps with their connections, whatever the
requests ask. `apiAnswers_iff` says that the schedules on which every
connection is sent its own response, for all requests, are exactly the
undisturbed ones; a response that does not fit the buffer of the tag is sent
whole on none.
-/

namespace IotHome.Firmware

open IotHome.Lib

/-- No request runs between the two steps of a connection's request. -/
def Undisturbed (steps : List Step) : Prop :=
  ∀ pre c r mid post,
    steps = pre ++ .cgi c r :: (mid ++ .ssi c :: post) →
      (∀ x ∈ mid, x.conn ≠ c) → ∀ x ∈ mid, x.isCgi = false

def SameSchedule (steps steps' : List Step) : Prop :=
  steps.map (fun x => (x.isCgi, x.conn)) =
    steps'.map fun x => (x.isCgi, x.conn)

/-- The connection is sent its own response, all of it and nothing else. -/
def Answer.SentOwn (a : Answer) : Prop :=
  a.inserted = a.own ∧ a.printed = a.own.length

theorem cgi_of_key {x : Step} {c : Nat} (h : (x.isCgi, x.conn) = (true, c)) :
    ∃ r, x = .cgi c r := by
  cases x with
  | cgi d r =>
      obtain rfl := (Prod.mk.inj h).2
      exact ⟨r, rfl⟩
  | ssi d => exact absurd (Prod.mk.inj h).1 (by simp [Step.isCgi])

theorem ssi_of_key {x : Step} {c : Nat}
    (h : (x.isCgi, x.conn) = (false, c)) : x = .ssi c := by
  cases x with
  | cgi d r => exact absurd (Prod.mk.inj h).1 (by simp [Step.isCgi])
  | ssi d =>
      obtain rfl := (Prod.mk.inj h).2
      rfl

/-- Whether a schedule is undisturbed does not depend on the requests. -/
theorem Undisturbed.of_sameSchedule {steps steps' : List Step}
    (h : Undisturbed steps) (hsame : SameSchedule steps' steps) :
    Undisturbed steps' := by
  rintro pre c r mid post rfl hmid
  rw [SameSchedule, List.map_append, List.map_cons, List.map_append,
    List.map_cons] at hsame
  obtain ⟨pre₀, rest₀, rfl, _, hrest⟩ := List.map_eq_append_iff.1 hsame.symm
  obtain ⟨x, rest₁, rfl, hx, hrest⟩ := List.map_eq_cons_iff.1 hrest
  obtain ⟨mid₀, rest₂, rfl, hmid₀, hrest⟩ := List.map_eq_append_iff.1 hrest
  obtain ⟨y, post₀, rfl, hy, _⟩ := List.map_eq_cons_iff.1 hrest
  obtain ⟨r₀, rfl⟩ := cgi_of_key hx
  obtain rfl := ssi_of_key hy
  have hkeys : ∀ {P : Bool × Nat → Prop},
      (∀ z ∈ mid₀, P (z.isCgi, z.conn)) ↔ ∀ z ∈ mid, P (z.isCgi, z.conn) := by
    intro P
    have hmap := congrArg (fun l => ∀ k ∈ l, P k) hmid₀
    simp only [List.forall_mem_map] at hmap
    exact Eq.to_iff hmap
  have hcgi := h pre₀ c r₀ mid₀ post₀ rfl
    ((hkeys (P := fun k => k.2 ≠ c)).2 hmid)
  exact (hkeys (P := fun k => k.1 = false)).1 hcgi

theorem Undisturbed.of_append {steps more : List Step}
    (h : Undisturbed (steps ++ more)) : Undisturbed steps := by
  intro pre c r mid post heq hmid
  refine h pre c r mid (post ++ more) ?_ hmid
  rw [heq, List.append_assoc, List.cons_append, List.append_assoc,
    List.cons_append]

/-! ## What a step does -/

theorem step_cgi {L : Nat} {h h' : Httpd} {c : Nat} {r : Request}
    (hs : Httpd.step L h (.cgi c r) = .ok h') :
    ∃ b, apiCgiHandler h.board r = .ok b ∧ h'.board = b ∧
      (∀ d, h'.own d = if d = c then some b.response else h.own d) ∧
      h'.answers = h.answers := by
  rw [Httpd.step, bind_eq_ok] at hs
  obtain ⟨b, hb, hs⟩ := hs
  obtain rfl := (Except.ok.inj hs).symm
  exact ⟨b, hb, rfl, fun _ => rfl, rfl⟩

theorem step_ssi {L : Nat} {h h' : Httpd} {c : Nat}
    (hs : Httpd.step L h (.ssi c) = .ok h') :
    ∃ sent, ssiHandler L h.board = .ok sent ∧ h'.board = h.board ∧
      (∀ d, h'.own d = if d = c then none else h.own d) ∧
      h'.answers = match h.own c with
        | none => h.answers
        | some own => h.answers ++ [⟨c, own, sent.1, sent.2⟩] := by
  rw [Httpd.step, bind_eq_ok] at hs
  obtain ⟨⟨inserted, printed⟩, hsent, hs⟩ := hs
  obtain rfl := (Except.ok.inj hs).symm
  exact ⟨(inserted, printed), hsent, rfl, fun _ => rfl, rfl⟩

/-! ## Undisturbed schedules -/

/-- Where a connection's response stands: behind the request it belongs to
there was no other step of the connection, and as long as there was no other
request either, the response is in the global. -/
def Pending (done : List Step) (h : Httpd) : Prop :=
  ∀ c own, h.own c = some own → ∃ pre r mid,
    done = pre ++ .cgi c r :: mid ∧ (∀ x ∈ mid, x.conn ≠ c) ∧
      ((∀ x ∈ mid, x.isCgi = false) → h.board.response = own)

/-- A step of another connection leaves what `c` waits for pending. -/
theorem pending_other {done : List Step} {h h' : Httpd} {x : Step} {c : Nat}
    {own : String} (hpend : Pending done h) (hown : h.own c = some own)
    (hne : x.conn ≠ c) (hboard : x.isCgi = false → h'.board = h.board) :
    ∃ pre r mid, done ++ [x] = pre ++ .cgi c r :: mid ∧
      (∀ y ∈ mid, y.conn ≠ c) ∧
        ((∀ y ∈ mid, y.isCgi = false) → h'.board.response = own) := by
  obtain ⟨pre, r, mid, rfl, hmid, hres⟩ := hpend c own hown
  refine ⟨pre, r, mid ++ [x], by simp, ?_, fun hcgi => ?_⟩
  · intro y hy
    rcases List.mem_append.1 hy with hy | hy
    · exact hmid y hy
    · rw [List.mem_singleton.1 hy]
      exact hne
  · rw [hboard (hcgi x (by simp))]
    exact hres fun y hy => hcgi y (List.mem_append_left _ hy)

theorem pending_step {L : Nat} {done : List Step} {h h' : Httpd} {x : Step}
    (hpend : Pending done h) (hs : Httpd.step L h x = .ok h') :
    Pending (done ++ [x]) h' := by
  intro c own hown
  cases x with
  | cgi d r =>
      obtain ⟨b, _, hb, hown', _⟩ := step_cgi hs
      rw [hown'] at hown
      by_cases hd : c = d
      · subst hd
        rw [if_pos rfl] at hown
        refine ⟨done, r, [], rfl, (by simp), fun _ => ?_⟩
        rw [hb]
        exact Option.some.inj hown
      · rw [if_neg hd] at hown
        exact pending_other hpend hown (Ne.symm hd) nofun
  | ssi d =>
      obtain ⟨_, _, hb, hown', _⟩ := step_ssi hs
      rw [hown'] at hown
      by_cases hd : c = d
      · rw [if_pos hd] at hown
        cases hown
      · rw [if_neg hd] at hown
        exact pending_other hpend hown (Ne.symm hd) fun _ => hb

theorem snprintf_sent {L : Nat} {text : String} {sent : String × Nat}
    (hL : 0 < L) (h : snprintf L text = .ok sent) :
    (sent.1 = text ∧ sent.2 = text.length) ↔ text.length < L := by
  rw [snprintf] at h
  split at h
  · cases h
  · obtain rfl := (Except.ok.inj h).symm
    have hlen : text.length = text.toList.length :=
      String.length_toList.symm
    rw [hlen, ← String.toList_inj, String.toList_ofList]
    constructor
    · intro h'
      obtain ⟨htake, _⟩ := h'
      have hle := congrArg List.length htake
      rw [List.length_take] at hle
      omega
    · intro hlt
      exact ⟨List.take_of_length_le (by omega), rfl⟩

/-- A run with an undisturbed schedule: every connection is sent its own
response, whole exactly when it fits. -/
theorem run_undisturbed {L : Nat} (hL : 0 < L) {steps : List Step}
    {b : Board} {h : Httpd}
    (hrun : Httpd.run L (Httpd.idle b) steps = .ok h)
    (hsched : Undisturbed steps) :
    ∀ a ∈ h.answers, a.SentOwn ↔ a.own.length < L := by
  have hinv := Run.history
    (P := fun done h => Pending done h ∧ (Undisturbed done →
      ∀ a ∈ h.answers, a.SentOwn ↔ a.own.length < L))
    ?_ ⟨?_, ?_⟩ (run_iff_foldlM.1 hrun)
  · exact hinv.2 hsched
  · intro done h x h' ⟨hpend, hans⟩ hs
    refine ⟨pending_step hpend hs, fun hsched a ha => ?_⟩
    have hans := hans hsched.of_append
    cases x with
    | cgi c r =>
        obtain ⟨_, _, _, _, hsame⟩ := step_cgi hs
        rw [hsame] at ha
        exact hans a ha
    | ssi c =>
        obtain ⟨sent, hsent, _, _, hnew⟩ := step_ssi hs
        rw [hnew] at ha
        cases hown : h.own c with
        | none =>
            rw [hown] at ha
            exact hans a ha
        | some own =>
            rw [hown] at ha
            rcases List.mem_append.1 ha with ha | ha
            · exact hans a ha
            · obtain rfl := List.mem_singleton.1 ha
              obtain ⟨pre, r, mid, rfl, hmid, hres⟩ := hpend c own hown
              have hcgi := hsched pre c r mid [] (by simp) hmid
              rw [ssiHandler, hres hcgi] at hsent
              exact snprintf_sent hL hsent
  · intro c own hown
    cases hown
  · intro _ a ha
    cases ha

/-! ## Disturbed ones

Two requests tell a connection from the others: one without parameters, which
is answered `[]`, and one that drives pin 1. Given the first to a connection
and the second to all others, its page shows whose response it got. -/

/-- `GET /api` and `GET /api?pin=1&val=1`. -/
def tellApart (mine : Bool) : Request :=
  if mine then ⟨0, slots [] [], slots [] []⟩
  else ⟨2, slots [some "pin", some "val"] [], slots [some "1", some "1"] []⟩

def tellText (mine : Bool) : String :=
  if mine then "[]" else "[" ++ objText 1 1 true true ++ "]"

theorem apiCgiHandler_tellApart (b : Board) (mine : Bool) :
    ∃ g, apiCgiHandler b (tellApart mine) = .ok ⟨g, tellText mine⟩ := by
  cases mine with
  | true => exact ⟨b.gpio, rfl⟩
  | false => exact ⟨_, rfl⟩

theorem tellText_length (mine : Bool) :
    (tellText mine).length = if mine then 2 else 35 := by
  cases mine with
  | true => rfl
  | false => rfl

theorem tellText_format (mine : Bool) : '%' ∉ (tellText mine).toList := by
  cases mine with
  | true => decide
  | false => decide

/-- The same schedule, with the two requests dealt out around `c`. -/
def dealt (c : Nat) : Step → Step
  | .cgi d _ => .cgi d (tellApart (d == c))
  | .ssi d => .ssi d

theorem sameSchedule_dealt (c : Nat) (steps : List Step) :
    SameSchedule (steps.map (dealt c)) steps := by
  rw [SameSchedule, List.map_map]
  refine List.map_congr_left fun x _ => ?_
  cases x with
  | cgi d r => rfl
  | ssi d => rfl

/-- One step with the requests dealt out: it happens, it adds to the answers
only, and a step of another connection leaves what `c` waits for. -/
theorem step_dealt {L c : Nat} {h : Httpd} {mine : Bool}
    (hres : h.board.response = tellText mine) (x : Step) :
    ∃ h', Httpd.step L h (dealt c x) = .ok h' ∧
      h'.board.response =
        tellText (if x.isCgi then x.conn == c else mine) ∧
      h.answers <+: h'.answers ∧ (x.conn ≠ c → h'.own c = h.own c) := by
  cases x with
  | cgi d r =>
      obtain ⟨g, hg⟩ := apiCgiHandler_tellApart h.board (d == c)
      let h' : Httpd :=
        { h with
          board := ⟨g, tellText (d == c)⟩
          own := fun e =>
            if e = d then some (tellText (d == c)) else h.own e }
      have hstep : Httpd.step L h (dealt c (.cgi d r)) = .ok h' := by
        rw [dealt, Httpd.step, hg]
        rfl
      refine ⟨h', hstep, rfl, List.prefix_refl _, fun hd => ?_⟩
      exact if_neg (Ne.symm hd)
  | ssi d =>
      have hsent : ssiHandler L h.board = .ok
          (String.ofList ((tellText mine).toList.take (L - 1)),
            (tellText mine).length) := by
        rw [ssiHandler, hres, snprintf, if_neg (tellText_format mine)]
      obtain ⟨h', hstep⟩ : ∃ h',
          Httpd.step L h (dealt c (.ssi d)) = .ok h' := by
        rw [dealt, Httpd.step, hsent]
        exact ⟨_, rfl⟩
      obtain ⟨_, _, hb, hown, hans⟩ := step_ssi hstep
      refine ⟨h', hstep, by rw [hb, hres]; rfl, ?_, fun hd => ?_⟩
      · rw [hans]
        cases h.own d with
        | none => exact List.prefix_refl _
        | some own => exact List.prefix_append _ _
      · rw [hown]
        exact if_neg (Ne.symm hd)

/-- A run with the requests dealt out. Over steps of other connections what
`c` waits for stays, and a request among them puts its response into the
global. -/
theorem run_dealt {L c : Nat} (steps : List Step) :
    ∀ {h : Httpd} {b : Bool}, h.board.response = tellText b →
      ∃ h' mine', Httpd.run L h (steps.map (dealt c)) = .ok h' ∧
        h'.board.response = tellText mine' ∧ h.answers <+: h'.answers ∧
        ((∀ x ∈ steps, x.conn ≠ c) → h'.own c = h.own c ∧
          (b = false ∨ (∃ x ∈ steps, x.isCgi = true) →
            mine' = false)) := by
  induction steps with
  | nil =>
      intro h b hres
      refine ⟨h, b, rfl, hres, List.prefix_refl _, fun _ => ⟨rfl, ?_⟩⟩
      rintro (hm | ⟨x, hx, _⟩)
      · exact hm
      · cases hx
  | cons x steps ih =>
      intro h b hres
      obtain ⟨h₁, hs, hres₁, hans₁, hown₁⟩ := step_dealt (L := L) hres x
      obtain ⟨h₂, mine₂, hrun, hres₂, hans₂, hrest⟩ := ih hres₁
      refine ⟨h₂, mine₂, ?_, hres₂, hans₁.trans hans₂, ?_⟩
      · rw [Httpd.run, List.map_cons, List.foldlM_cons, hs]
        exact hrun
      · intro hconn
        have hx := hconn x (by simp)
        have hsteps := fun y hy => hconn y (List.mem_cons_of_mem x hy)
        obtain ⟨hown₂, hmine⟩ := hrest hsteps
        refine ⟨hown₂.trans (hown₁ hx), fun hor => hmine ?_⟩
        rcases hor with hm | ⟨y, hy, hcgi⟩
        · left
          rw [hm]
          split
          · exact beq_false_of_ne hx
          · rfl
        · rcases List.mem_cons.1 hy with rfl | hy
          · left
            rw [if_pos hcgi]
            exact beq_false_of_ne hx
          · right
            exact ⟨y, hy, hcgi⟩

/-- A disturbed schedule has a run in which a connection is sent the response
of another one, though its own fits. -/
theorem run_disturbed {L : Nat} (hL : 2 < L) {steps : List Step}
    (hsched : ¬ Undisturbed steps) :
    ∃ steps' b h, SameSchedule steps' steps ∧
      Httpd.run L (Httpd.idle b) steps' = .ok h ∧
      ∃ a ∈ h.answers, a.own.length < L ∧ ¬ a.SentOwn := by
  simp only [Undisturbed, not_forall] at hsched
  obtain ⟨pre, c, r, mid, post, rfl, hmid, x, hx, hcgi⟩ := hsched
  rw [Bool.not_eq_false] at hcgi
  let b : Board := ⟨⟨fun _ => false, fun _ => false, []⟩, "[]"⟩
  obtain ⟨h₁, m₁, hrun₁, hres₁, _, _⟩ :=
    run_dealt (L := L) (c := c) pre (h := Httpd.idle b) (b := true) rfl
  obtain ⟨g, hg⟩ := apiCgiHandler_tellApart h₁.board true
  let h₂ : Httpd :=
    { h₁ with
      board := ⟨g, tellText true⟩
      own := fun d => if d = c then some (tellText true) else h₁.own d }
  have hstep : Httpd.step L h₁ (dealt c (.cgi c r)) = .ok h₂ := by
    rw [dealt, beq_self_eq_true, Httpd.step, hg]
    rfl
  obtain ⟨h₃, m₃, hrun₃, hres₃, _, hconn⟩ :=
    run_dealt (L := L) (c := c) mid (h := h₂) (b := true) rfl
  obtain ⟨hown₃, hm₃⟩ := hconn hmid
  have hown : h₃.own c = some "[]" := hown₃.trans (if_pos rfl)
  have hforeign : h₃.board.response = tellText false := by
    rw [hres₃, hm₃ (.inr ⟨x, hx, hcgi⟩)]
  obtain ⟨h₄, hs₄, hres₄, _, _⟩ :=
    step_dealt (L := L) (c := c) hforeign (.ssi c)
  obtain ⟨sent, hsent, _, _, hans₄⟩ := step_ssi hs₄
  rw [hown] at hans₄
  obtain ⟨h₅, _, hrun₅, _, hpre, _⟩ :=
    run_dealt (L := L) (c := c) post hres₄
  refine ⟨_, b, h₅, sameSchedule_dealt c _, ?_, ⟨c, "[]", sent.1, sent.2⟩,
    hpre.subset ?_, ?_, ?_⟩
  · rw [List.map_append, List.map_cons, List.map_append, List.map_cons]
    exact run_iff_foldlM.2 <| (run_iff_foldlM.1 hrun₁).append
      (.cons hstep ((run_iff_foldlM.1 hrun₃).append
        (.cons hs₄ (run_iff_foldlM.1 hrun₅))))
  · rw [hans₄]
    simp
  · show "[]".length < L
    rw [show "[]".length = 2 from rfl]
    exact hL
  · intro h'
    obtain ⟨_, hprinted⟩ := h'
    rw [ssiHandler, hforeign, snprintf, if_neg (tellText_format false)]
      at hsent
    obtain rfl := (Except.ok.inj hsent).symm
    have hlen : (tellText false).length = "[]".length := hprinted
    rw [tellText_length] at hlen
    exact absurd hlen (by decide)

/-! ## Schedules -/

/-- The schedules on which, whatever is asked, each connection is sent its
own response as long as it fits the tag's buffer are the undisturbed ones. Of
runs in which a request faults nothing is said. -/
theorem apiAnswers_iff {L : Nat} (hL : 2 < L) (steps : List Step) :
    (∀ steps' b h, SameSchedule steps' steps →
      Httpd.run L (Httpd.idle b) steps' = .ok h →
        ∀ a ∈ h.answers, a.SentOwn ↔ a.own.length < L) ↔
      Undisturbed steps := by
  constructor
  · intro hall
    rcases Classical.em (Undisturbed steps) with hsched | hsched
    · exact hsched
    · obtain ⟨steps', b, h, hsame, hrun, a, ha, hlen, hnot⟩ :=
        run_disturbed hL hsched
      exact absurd ((hall steps' b h hsame hrun a ha).2 hlen) hnot
  · intro hsched steps' b h hsame hrun
    exact run_undisturbed (by omega) hrun (hsched.of_sameSchedule hsame)

/-- A query of pin 2 and, before its page is sent, one of pin 3. -/
def overlapping : List Step :=
  [.cgi 0 ⟨1, slots [some "pin"] [some ""], slots [some "2"] []⟩,
   .cgi 1 ⟨1, slots [some "pin"] [some ""], slots [some "3"] []⟩,
   .ssi 0, .ssi 1]

theorem apiAnswers_iff_overlapping :
    (∀ steps' b h, SameSchedule steps' overlapping →
      Httpd.run 192 (Httpd.idle b) steps' = .ok h →
        ∀ a ∈ h.answers, a.SentOwn ↔ a.own.length < 192) ↔
      Undisturbed overlapping :=
  apiAnswers_iff (by decide) overlapping

/-- Both connections are sent the answer to the query of pin 3. -/
theorem overlapping_sends_foreign :
    ∃ b h a, Httpd.run 192 (Httpd.idle b) overlapping = .ok h ∧
      a ∈ h.answers ∧ a.conn = 0 ∧
      a.own = "[\x7b\"pin\":2,\"val\":-1,\"dir\":1,\"sta\":0\x7d]" ∧
      a.inserted = "[\x7b\"pin\":3,\"val\":-1,\"dir\":1,\"sta\":0\x7d]" ∧
      ¬ a.SentOwn := by
  refine ⟨⟨⟨fun _ => false, fun _ => false, []⟩, "[]"⟩, _, _, rfl,
    List.mem_cons_self, rfl, rfl, rfl, ?_⟩
  intro h'
  obtain ⟨hinserted, _⟩ := h'
  exact absurd hinserted (by decide)

end IotHome.Firmware
