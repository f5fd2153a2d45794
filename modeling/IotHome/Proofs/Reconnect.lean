import IotHome.Server.WsClient

/-!
# One connection at a time

A socket that is open is `this.ws`, or the loop is about to take it as such;
and while the loop waits for a socket, or is about to take one, `this.ws` is
closed for good. From the two it follows that no two sockets are open, through
every order of the events. With the signal `this.ws` is closed, and whatever
was being opened then is closed by the loop when it goes on.
-/

namespace IotHome.Server

open IotHome.Lib

/-- The socket that the loop waits for, or is about to take. -/
def Loop.pending (l : Loop) (socket : Nat) : Prop :=
  l = .opening socket ∨ l = .opened socket

def WsEvent.isLoopStep : WsEvent → Prop
  | .tick _ => True
  | .resume => True
  | _ => False

/-- What is asked of the client after the events `es`. -/
structure ReconnectsWell (lib : WsLibrary) (es : List WsEvent)
    (s : WsClient) : Prop where
  atMostOne : ∀ i j : Nat, s.sockets[i]? = some .opened →
    s.sockets[j]? = some .opened → i = j
  /-- The one that is open is `this.ws`, unless the loop has yet to go on with
  it. -/
  isWs : ∀ i : Nat, s.sockets[i]? = some .opened → s.loop ≠ .opened i →
    s.ws = some i
  /-- A socket is created only where `this.ws` is missing or closed. -/
  creates : ∀ e s', wsStep lib s e = some s' →
    s.sockets.length < s'.sockets.length →
    s.ws = none ∨ ∃ i, s.ws = some i ∧ s.sockets[i]? = some .closed
  /-- After the signal and a step of the loop none is open. -/
  shutDown : ∀ before between after e,
    es = before ++ .sigterm :: between ++ e :: after → e.isLoopStep →
    ∀ i : Nat, s.sockets[i]? ≠ some .opened

/-- What holds of the client between events. -/
structure OneSocket (s : WsClient) : Prop where
  opens : ∀ i, s.sockets[i]? = some .opened →
    s.ws = some i ∨ s.loop = .opened i
  connects : ∀ i, s.sockets[i]? = some .connecting → s.loop = .opening i
  created : ∀ i, s.ws = some i ∨ s.loop.pending i → i < s.sockets.length
  replaced : ∀ i j, s.loop.pending i → s.ws = some j →
    s.sockets[j]? = some .closed
  shut : s.terminate = true → ∀ i, s.ws = some i →
    s.sockets[i]? ≠ some .opened

theorem oneSocket_start : OneSocket .start where
  opens := by simp [WsClient.start]
  connects := by simp [WsClient.start]
  created := by simp [WsClient.start, Loop.pending]
  replaced := by simp [WsClient.start]
  shut := by simp [WsClient.start]

/-- The loop comes to a place where it has no socket in hand, and leaves none
behind that could be open. -/
theorem OneSocket.idle {s : WsClient} (h : OneSocket s) {l : Loop}
    (hopened : ∀ i, s.loop = .opened i → s.sockets[i]? ≠ some .opened)
    (hopening : ∀ i, s.loop = .opening i → s.sockets[i]? ≠ some .connecting)
    (hafter : ∀ i, ¬ l.pending i) : OneSocket { s with loop := l } where
  opens := fun i hi => by
    rcases h.opens i hi with hws | hloop
    · exact .inl hws
    · exact absurd hi (hopened i hloop)
  connects := fun i hi => absurd hi (hopening i (h.connects i hi))
  created := fun i hi => by
    rcases hi with hws | hpending
    · exact h.created i (.inl hws)
    · exact absurd hpending (hafter i)
  replaced := fun i j hi => absurd hi (hafter i)
  shut := h.shut

/-- `this.ws` never is a socket that is connecting. -/
theorem OneSocket.readyState_ne {s : WsClient} (h : OneSocket s) :
    s.readyState ≠ some .connecting := by
  intro hstate
  obtain ⟨i, hws, hi⟩ := Option.bind_eq_some_iff.1 hstate
  have hclosed := h.replaced i i (.inl (h.connects i hi)) hws
  rw [hi] at hclosed
  cases hclosed

theorem OneSocket.send_eq {s : WsClient} (h : OneSocket s) :
    s.send = { s with loop := .sleeping } := by
  rw [WsClient.send, if_neg h.readyState_ne]

/-- Where the loop opens a socket, `this.ws` is closed if there is one. -/
theorem OneSocket.closed_of_mustOpen {s : WsClient} (h : OneSocket s)
    (hopen : s.mustOpen = true) {i : Nat} (hws : s.ws = some i) :
    s.sockets[i]? = some .closed := by
  have hi := List.getElem?_eq_getElem (h.created i (.inl hws))
  have hstate : s.readyState = s.sockets[i]? := by
    rw [WsClient.readyState, hws, Option.bind_some]
  simp only [WsClient.mustOpen, decide_eq_true_eq] at hopen
  rcases hopen with hnone | hconn | hclosed
  · rw [hstate, hi] at hnone
    cases hnone
  · exact absurd hconn h.readyState_ne
  · exact hstate ▸ hclosed

theorem OneSocket.openWs {s : WsClient} (h : OneSocket s)
    (hsleeping : s.loop = .sleeping) (hterm : s.terminate = false)
    (hopen : s.mustOpen = true) (constructs : Bool) :
    OneSocket (s.openWs constructs) := by
  have hopened : ∀ i, s.loop ≠ .opened i := by simp [hsleeping]
  have hopening : ∀ i, s.loop ≠ .opening i := by simp [hsleeping]
  rw [WsClient.openWs]
  split
  · have hold : ∀ i r, (s.sockets ++ [.connecting])[i]? = some r →
        s.sockets[i]? = some r ∨ i = s.sockets.length ∧ r = .connecting := by
      intro i r hi
      rw [List.getElem?_append] at hi
      split at hi
      · exact .inl hi
      · obtain ⟨hlt, hr⟩ := List.getElem?_eq_some_iff.1 hi
        simp only [List.length_singleton] at hlt
        exact .inr ⟨by omega, by simpa using hr.symm⟩
    refine ⟨fun i hi => ?_, fun i hi => ?_, fun i hi => ?_, fun i j hi hj => ?_,
      fun ht => ?_⟩
    · rcases hold i _ hi with hi | ⟨_, hr⟩
      · exact .inl ((h.opens i hi).resolve_right (hopened i))
      · cases hr
    · rcases hold i _ hi with hi | ⟨rfl, _⟩
      · exact absurd (h.connects i hi) (hopening i)
      · rfl
    · rw [List.length_append, List.length_singleton]
      rcases hi with hws | hloop | hloop
      · have hlt := h.created i (.inl hws)
        omega
      · have heq := Loop.opening.inj hloop
        omega
      · cases hloop
    · -- The loop has just seen that `this.ws` is closed.
      rw [List.getElem?_append_left (h.created j (.inl hj))]
      exact h.closed_of_mustOpen hopen hj
    · rw [hterm] at ht
      cases ht
  · exact h.idle (fun i hi => absurd hi (hopened i))
      (fun i hi => absurd hi (hopening i)) (by simp [Loop.pending])

/-- The loop takes the socket that has opened. -/
theorem OneSocket.take {s : WsClient} (h : OneSocket s) {i : Nat}
    (hloop : s.loop = .opened i) (hterm : s.terminate = false) :
    OneSocket { s with ws := some i }.send := by
  have hconnects : ∀ j : Nat, s.sockets[j]? ≠ some .connecting := by
    intro j hj
    have hopening := h.connects j hj
    rw [hloop] at hopening
    cases hopening
  have hstate : WsClient.readyState { s with ws := some i } ≠
      some .connecting := hconnects i
  rw [WsClient.send, if_neg hstate]
  refine ⟨fun j hj => ?_, fun j hj => absurd hj (hconnects j),
    fun j hj => ?_, fun j _ hj => ?_, fun ht => ?_⟩
  · rcases h.opens j hj with hws | hopened
    · have hclosed := h.replaced i j (.inr hloop) hws
      rw [show s.sockets[j]? = some .opened from hj] at hclosed
      cases hclosed
    · rw [hloop] at hopened
      exact .inl (congrArg some (Loop.opened.inj hopened))
  · rcases hj with hws | hpending
    · obtain rfl := Option.some.inj hws
      exact h.created i (.inr (.inr hloop))
    · simp [Loop.pending] at hpending
  · simp [Loop.pending] at hj
  · rw [show s.terminate = true from ht] at hterm
    cases hterm

/-! ## The sockets -/

/-- A method that leaves a socket `CLOSING` at least. -/
def Closes (f : ReadyState → ReadyState) : Prop :=
  ∀ r, 2 ≤ (f r).toNat ∧ r.toNat ≤ (f r).toNat

theorem ReadyState.toNat_inj {r r' : ReadyState} (h : r.toNat = r'.toNat) :
    r = r' := by
  cases r <;> cases r' <;> simp_all [ReadyState.toNat]

theorem ReadyState.eq_closed {r : ReadyState} (h : 3 ≤ r.toNat) :
    r = .closed := by
  cases r <;> simp_all [ReadyState.toNat]

theorem call_getElem? (s : WsClient) (f : ReadyState → ReadyState)
    (i j : Nat) : (s.call f i).sockets[j]? =
      (s.sockets[j]?).map fun r => if i = j then f r else r := by
  rw [WsClient.call, List.getElem?_modify]
  rfl

/-- What is not closing yet has not been called on. -/
theorem call_eq_some {s : WsClient} {f : ReadyState → ReadyState}
    (hf : Closes f) {i j : Nat} {r : ReadyState} (hr : r.toNat < 2)
    (h : (s.call f i).sockets[j]? = some r) :
    i ≠ j ∧ s.sockets[j]? = some r := by
  rw [call_getElem?] at h
  obtain ⟨r₀, hr₀, heq⟩ := Option.map_eq_some_iff.1 h
  split at heq
  · have := (hf r₀).1
    rw [heq] at this
    omega
  · next hne => exact ⟨hne, heq ▸ hr₀⟩

theorem OneSocket.call {s : WsClient} (h : OneSocket s)
    {f : ReadyState → ReadyState} (hf : Closes f) (i : Nat) :
    OneSocket (s.call f i) where
  opens := fun j hj => h.opens j (call_eq_some hf (by decide) hj).2
  connects := fun j hj => h.connects j (call_eq_some hf (by decide) hj).2
  created := fun j hj => by
    rw [WsClient.call, List.length_modify]
    exact h.created j hj
  replaced := fun j k hj hk => by
    rw [call_getElem?, h.replaced j k hj hk, Option.map_some]
    split
    · exact congrArg some (ReadyState.eq_closed (hf .closed).2)
    · rfl
  shut := fun ht j hj hopen =>
    h.shut ht j hj (call_eq_some hf (by decide) hopen).2

theorem settle_of_ne {l : Loop} {i : Nat} (h : l ≠ .opening i)
    (e : SocketEvent) : l.settle i e = l := by
  cases e <;> simp [Loop.settle, h]

theorem settle_opened {l : Loop} {j : Nat} (h : l = .opened j) (i : Nat)
    (e : SocketEvent) : l.settle i e = .opened j := by
  rw [settle_of_ne (by simp [h]), h]

theorem pending_of_settle {l : Loop} {i j : Nat} {e : SocketEvent}
    (h : (l.settle i e).pending j) : l.pending j := by
  by_cases hl : l = .opening i
  · subst hl
    cases e <;> simp_all [Loop.settle, Loop.pending]
  · rwa [settle_of_ne hl] at h

variable {lib : WsLibrary}

theorem setSocket_getElem? {s : WsClient} {i : Nat} {r : ReadyState}
    (hr : s.sockets[i]? = some r) (r' : ReadyState) (j : Nat) :
    (s.setSocket i r').sockets[j]? =
      if i = j then some r' else s.sockets[j]? := by
  rw [WsClient.setSocket, List.getElem?_set,
    if_pos (List.getElem?_eq_some_iff.1 hr).1]

section

variable {s : WsClient} (h : OneSocket s) {i : Nat} {e : SocketEvent}
  {r r' : ReadyState} (hr : s.sockets[i]? = some r)
  (hr' : lib.next r e = some r')

include h hr hr'

/-- A socket that comes to be open was the one the loop waits for. -/
theorem OneSocket.awaited_of_opened (hopened : r' = .opened) :
    r = .opened ∨ s.loop = .opening i ∧ e = .opened := by
  have hadvances := lib.advances hr'
  subst hopened
  rcases lib.opens hr' with rfl | hr₀
  · cases r with
    | connecting => exact .inr ⟨h.connects i hr, rfl⟩
    | opened => exact .inl rfl
    | closing => simp [ReadyState.toNat] at hadvances
    | closed => simp [ReadyState.toNat] at hadvances
  · exact .inl hr₀

/-- While a socket is still connecting, the loop goes on waiting for it. -/
theorem OneSocket.settle_of_connecting (hconn : r' = .connecting) :
    s.loop.settle i e = .opening i := by
  obtain ⟨hopened, herror⟩ := lib.settles (hconn ▸ hr')
  have hadvances := lib.advances (hconn ▸ hr')
  have hr₀ : r = .connecting :=
    ReadyState.toNat_inj (Nat.le_zero.1 hadvances)
  have hloop := h.connects i (hr₀ ▸ hr)
  cases e with
  | opened => exact absurd rfl hopened
  | error => exact absurd rfl herror
  | closing => simp [Loop.settle, hloop]
  | closed => simp [Loop.settle, hloop]

/-- What happens to a socket, and to the promise of `openWs`. -/
theorem OneSocket.socket :
    OneSocket { s.setSocket i r' with loop := s.loop.settle i e } := by
  have hadvances := lib.advances hr'
  have hset := setSocket_getElem? hr r'
  refine ⟨fun j hj => ?_, fun j hj => ?_, fun j hj => ?_, fun j k hj hk => ?_,
    fun ht j hj hopened => ?_⟩
  · rw [hset] at hj
    have hkeeps : ∀ k, s.ws = some k ∨ s.loop = .opened k →
        s.ws = some k ∨ s.loop.settle i e = .opened k := fun k hk =>
      hk.imp_right fun hloop => settle_opened hloop i e
    split at hj
    · next hij =>
        subst hij
        rcases h.awaited_of_opened hr hr' (Option.some.inj hj) with
          rfl | ⟨hloop, rfl⟩
        · exact hkeeps i (h.opens i hr)
        · exact .inr (by simp [Loop.settle, hloop])
    · exact hkeeps j (h.opens j hj)
  · rw [hset] at hj
    split at hj
    · next hij =>
        subst hij
        exact h.settle_of_connecting hr hr' (Option.some.inj hj)
    · next hij =>
        have hloop := h.connects j hj
        show s.loop.settle i e = _
        rw [settle_of_ne, hloop]
        rw [hloop]
        exact fun heq => hij (Loop.opening.inj heq).symm
  · rw [WsClient.setSocket, List.length_set]
    exact h.created j (hj.imp id pending_of_settle)
  · have hclosed := h.replaced j k (pending_of_settle hj) hk
    rw [hset]
    split
    · next hij =>
        subst hij
        rw [hr] at hclosed
        obtain rfl := Option.some.inj hclosed
        exact congrArg some (ReadyState.eq_closed hadvances)
    · exact hclosed
  · rw [hset] at hopened
    split at hopened
    · next hij =>
        subst hij
        obtain rfl := Option.some.inj hopened
        rcases h.awaited_of_opened hr hr' rfl with rfl | ⟨hloop, rfl⟩
        · exact h.shut ht i hj hr
        · have hclosed := h.replaced i i (.inl hloop) hj
          rw [hr] at hclosed
          obtain rfl := Option.some.inj hclosed
          simp [ReadyState.toNat] at hadvances
    · exact h.shut ht j hj hopened

end

theorem closes_close (lib : WsLibrary) : Closes lib.close := lib.closes

theorem closes_terminate (lib : WsLibrary) : Closes lib.terminate :=
  lib.terminates

/-- A socket that was called on is not open. -/
theorem call_ne_opened (s : WsClient) {f : ReadyState → ReadyState}
    (hf : Closes f) (i : Nat) {r : ReadyState} (hr : r.toNat < 2) :
    (s.call f i).sockets[i]? ≠ some r :=
  fun h => (call_eq_some hf hr h).1 rfl

theorem OneSocket.step {s s' : WsClient} {e : WsEvent} (h : OneSocket s)
    (hstep : wsStep lib s e = some s') : OneSocket s' := by
  cases e with
  | tick constructs =>
      obtain ⟨hsleeping, hcases⟩ := wsStep_tick hstep
      have hidle : ∀ {l : Loop}, (∀ i, ¬ l.pending i) →
          OneSocket { s with loop := l } :=
        h.idle (by simp [hsleeping]) (by simp [hsleeping])
      rcases hcases with ⟨_, rfl⟩ | ⟨hterm, hopen, rfl⟩ | ⟨_, rfl⟩
      · exact hidle (by simp [Loop.pending])
      · exact h.openWs hsleeping hterm hopen constructs
      · rw [h.send_eq]
        exact hidle (by simp [Loop.pending])
  | resume =>
      rcases wsStep_resume hstep with ⟨i, hloop, ⟨_, rfl⟩ | ⟨hterm, rfl⟩⟩ |
        ⟨hloop, rfl⟩
      · have hcalls := (h.call (closes_terminate lib) i).call
          (closes_close lib) i
        refine hcalls.idle (fun j hj => ?_) (fun j hj => ?_)
          (by simp [Loop.pending])
        · obtain rfl : i = j := Loop.opened.inj (hloop.symm.trans hj)
          exact call_ne_opened _ (closes_close lib) i (by decide)
        · cases hloop.symm.trans hj
      · exact h.take hloop hterm
      · rw [h.send_eq]
        exact h.idle (by simp [hloop]) (by simp [hloop])
          (by simp [Loop.pending])
  | socket i e =>
      obtain ⟨r, r', hr, hr', rfl⟩ := wsStep_socket hstep
      exact h.socket hr hr'
  | sigterm =>
      rcases wsStep_sigterm hstep with ⟨hws, rfl⟩ | ⟨i, hws, rfl⟩
      · exact ⟨h.opens, h.connects, h.created, h.replaced,
          fun _ j hj => by rw [show s.ws = some j from hj] at hws; cases hws⟩
      · have hcalls := (h.call (closes_close lib) i).call
          (closes_terminate lib) i
        refine ⟨hcalls.opens, hcalls.connects, hcalls.created,
          hcalls.replaced, fun _ j hj => ?_⟩
        obtain rfl : i = j := Option.some.inj (hws.symm.trans hj)
        exact call_ne_opened (s.call lib.close i) (closes_terminate lib) i
          (by decide)

theorem oneSocket_of_run {es : List WsEvent} {s : WsClient}
    (h : WsRun lib es s) : OneSocket s :=
  Run.invariant (fun hs hstep => hs.step hstep) oneSocket_start h

theorem OneSocket.eq_of_opened {s : WsClient} (h : OneSocket s) {i j : Nat}
    (hi : s.sockets[i]? = some .opened) (hj : s.sockets[j]? = some .opened) :
    i = j := by
  rcases h.opens i hi with hwsi | hloopi
  · rcases h.opens j hj with hwsj | hloopj
    · exact Option.some.inj (hwsi.symm.trans hwsj)
    · have hclosed := h.replaced j i (.inr hloopj) hwsi
      rw [hi] at hclosed
      cases hclosed
  · rcases h.opens j hj with hwsj | hloopj
    · have hclosed := h.replaced i j (.inr hloopi) hwsj
      rw [hj] at hclosed
      cases hclosed
    · exact Loop.opened.inj (hloopi.symm.trans hloopj)

theorem OneSocket.creates {s s' : WsClient} {e : WsEvent} (h : OneSocket s)
    (hstep : wsStep lib s e = some s')
    (hlt : s.sockets.length < s'.sockets.length) :
    s.ws = none ∨ ∃ i, s.ws = some i ∧ s.sockets[i]? = some .closed := by
  have hcall : ∀ f i, (s.call f i).sockets.length = s.sockets.length :=
    fun f i => List.length_modify ..
  cases e with
  | tick constructs =>
      obtain ⟨_, ⟨_, rfl⟩ | ⟨_, hopen, rfl⟩ | ⟨_, rfl⟩⟩ := wsStep_tick hstep
      · exact absurd hlt (Nat.lt_irrefl _)
      · cases hws : s.ws with
        | none => exact .inl rfl
        | some i => exact .inr ⟨i, rfl, h.closed_of_mustOpen hopen hws⟩
      · rw [h.send_eq] at hlt
        exact absurd hlt (Nat.lt_irrefl _)
  | resume =>
      rcases wsStep_resume hstep with ⟨i, hloop, ⟨_, rfl⟩ | ⟨hterm, rfl⟩⟩ |
        ⟨_, rfl⟩
      · simp [WsClient.call] at hlt
      · rw [WsClient.send] at hlt
        split at hlt <;> exact absurd hlt (Nat.lt_irrefl _)
      · rw [h.send_eq] at hlt
        exact absurd hlt (Nat.lt_irrefl _)
  | socket i e =>
      obtain ⟨r, r', _, _, rfl⟩ := wsStep_socket hstep
      simp [WsClient.setSocket] at hlt
  | sigterm =>
      rcases wsStep_sigterm hstep with ⟨_, rfl⟩ | ⟨i, _, rfl⟩
      · exact absurd hlt (Nat.lt_irrefl _)
      · simp [WsClient.call] at hlt

/-! ## After the signal -/

/-- The signal has been processed, and the loop has gone on since. -/
structure Down (s : WsClient) : Prop where
  terminate : s.terminate = true
  loop : ∀ i, ¬ s.loop.pending i

theorem send_terminate (s : WsClient) : s.send.terminate = s.terminate := by
  rw [WsClient.send]
  split
  · rfl
  · rfl

theorem send_not_pending (s : WsClient) (i : Nat) :
    ¬ s.send.loop.pending i := by
  rw [WsClient.send]
  split
  · simp [Loop.pending]
  · simp [Loop.pending]

theorem terminate_step {s s' : WsClient} {e : WsEvent}
    (hterm : s.terminate = true) (hstep : wsStep lib s e = some s') :
    s'.terminate = true := by
  cases e with
  | tick constructs =>
      obtain ⟨_, ⟨_, rfl⟩ | ⟨hfalse, _⟩ | ⟨_, rfl⟩⟩ := wsStep_tick hstep
      · exact hterm
      · rw [hterm] at hfalse
        cases hfalse
      · rwa [send_terminate]
  | resume =>
      rcases wsStep_resume hstep with ⟨i, hloop, ⟨_, rfl⟩ | ⟨_, rfl⟩⟩ |
        ⟨_, rfl⟩
      · exact hterm
      · rwa [send_terminate]
      · rwa [send_terminate]
  | socket i e =>
      obtain ⟨r, r', _, _, rfl⟩ := wsStep_socket hstep
      exact hterm
  | sigterm =>
      rcases wsStep_sigterm hstep with ⟨_, rfl⟩ | ⟨i, _, rfl⟩
      · rfl
      · rfl

/-- The next step of the loop is its last, or it has nothing in hand. -/
theorem down_of_loopStep {s s' : WsClient} {e : WsEvent}
    (hterm : s.terminate = true) (he : e.isLoopStep)
    (hstep : wsStep lib s e = some s') : Down s' := by
  refine ⟨terminate_step hterm hstep, ?_⟩
  cases e with
  | tick constructs =>
      obtain ⟨_, ⟨_, rfl⟩ | ⟨hfalse, _⟩ | ⟨_, rfl⟩⟩ := wsStep_tick hstep
      · simp [Loop.pending]
      · rw [hterm] at hfalse
        cases hfalse
      · exact send_not_pending s
  | resume =>
      rcases wsStep_resume hstep with ⟨i, hloop, ⟨_, rfl⟩ | ⟨_, rfl⟩⟩ |
        ⟨_, rfl⟩
      · simp [Loop.pending]
      · exact send_not_pending _
      · exact send_not_pending s
  | socket i e => exact absurd he id
  | sigterm => exact absurd he id

theorem Down.step {s s' : WsClient} {e : WsEvent} (h : Down s)
    (hstep : wsStep lib s e = some s') : Down s' := by
  by_cases he : e.isLoopStep
  · exact down_of_loopStep h.terminate he hstep
  · refine ⟨terminate_step h.terminate hstep, ?_⟩
    cases e with
    | tick constructs => exact absurd trivial he
    | resume => exact absurd trivial he
    | socket i e =>
        obtain ⟨r, r', _, _, rfl⟩ := wsStep_socket hstep
        exact fun j hj => h.loop j (pending_of_settle hj)
    | sigterm =>
        rcases wsStep_sigterm hstep with ⟨_, rfl⟩ | ⟨i, _, rfl⟩
        · exact h.loop
        · exact h.loop

theorem OneSocket.none_open {s : WsClient} (h : OneSocket s) (hdown : Down s)
    (i : Nat) : s.sockets[i]? ≠ some .opened := by
  intro hi
  rcases h.opens i hi with hws | hloop
  · exact h.shut hdown.terminate i hws hi
  · exact hdown.loop i (.inr hloop)

/-- The signal, and some time later a step of the loop. -/
theorem down_of_run {es : List WsEvent} {s : WsClient} (h : WsRun lib es s)
    {before between after : List WsEvent} {e : WsEvent}
    (hes : es = before ++ .sigterm :: between ++ e :: after)
    (he : e.isLoopStep) : Down s := by
  subst hes
  obtain ⟨t, hfirst, hrest⟩ := Run.append_inv h
  obtain ⟨u, _, hsignal⟩ := Run.append_inv hfirst
  cases hsignal with
  | cons hsigterm hbetween =>
      cases hrest with
      | cons hloop hafter =>
          have hterm : t.terminate = true := by
            refine Run.invariant (P := fun s : WsClient => s.terminate = true)
              (fun ht hstep => terminate_step ht hstep) ?_ hbetween
            rcases wsStep_sigterm hsigterm with ⟨_, rfl⟩ | ⟨i, _, rfl⟩
            · rfl
            · rfl
          exact Run.invariant (fun hd hstep => hd.step hstep)
            (down_of_loopStep hterm he hloop) hafter

theorem reconnect_ok (lib : WsLibrary) {es : List WsEvent} {s : WsClient}
    (h : WsRun lib es s) : ReconnectsWell lib es s := by
  have hone := oneSocket_of_run h
  refine ⟨fun i j => hone.eq_of_opened, fun i hi hloop => ?_,
    fun e s' => hone.creates, fun before between after e hes he => ?_⟩
  · exact (hone.opens i hi).resolve_right hloop
  · exact hone.none_open (down_of_run h hes he)

/-- The signal comes while the first socket is opening, which then opens. -/
theorem reconnect_ok_pending : ReconnectsWell wsPackage
    [.tick true, .sigterm, .socket 0 .opened, .resume]
    ⟨[.closing], none, true, .returned⟩ :=
  reconnect_ok wsPackage (run_iff_foldlM_option.1 rfl)

end IotHome.Server
