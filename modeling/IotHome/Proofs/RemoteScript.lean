import IotHome.Server.RemoteScript

/-!
# Which calls for a script are answered

There is one place for the handlers of all calls, so a call is listening from
its start to the next one. `resolved_origin` says that nothing else resolves
a call, and `ownResults_iff` what follows: every call whose result arrives in
time is resolved exactly in the runs in which such a result comes before the
next call is started.
-/

namespace IotHome.Server

open IotHome.Lib

def ScriptCall.isRejected : ScriptCall → Bool
  | .rejected _ => true
  | _ => false

/-- No call is started in these events. -/
def NoStart (es : List ScriptEvent) : Prop := ∀ c name, .start c name ∉ es

/-- A result with the name of the call's script arrives while the call has
not been rejected, after it was started with `between` in between. -/
def ResultArrives (es : List ScriptEvent) (c : Nat) (name : JsString)
    (between : List ScriptEvent) (data : JsString) : Prop :=
  ∃ bs cs s, es = bs ++ .start c name :: between ++ .message data :: cs ∧
    ScriptRun .idle (bs ++ .start c name :: between) s ∧
    (s.calls c).isRejected = false ∧ Matches (parseMsg data) name

/-- The call is resolved with the texts of such a result. -/
def ResolvedByOwn (es : List ScriptEvent) (s : ScriptState) (c : Nat)
    (name : JsString) : Prop :=
  ∃ between data, ResultArrives es c name between data ∧
    s.calls c = .resolved name (getProp? (parseMsg data) "stdout")
      (getProp? (parseMsg data) "stderr")

/-- Every call whose result arrives is resolved with such a result. -/
def OwnResults (es : List ScriptEvent) (s : ScriptState) : Prop :=
  ∀ c name between data, ResultArrives es c name between data →
    ResolvedByOwn es s c name

/-- Every call whose result arrives has one arrive before the next call is
started. -/
def ResultsBeforeNext (es : List ScriptEvent) : Prop :=
  ∀ c name between data, ResultArrives es c name between data →
    ∃ between' data', ResultArrives es c name between' data' ∧
      NoStart between'

/-! ## Along a run -/

def ScriptCall.name? : ScriptCall → Option JsString
  | .idle => none
  | .pending name _ => some name
  | .resolved name _ _ => some name
  | .rejected name => some name

/-- What a state knows of the run that led to it: who holds the handler's
place, what each call was started with, and how a call that is resolved came
to be. -/
structure Traced (done : List ScriptEvent) (s : ScriptState) : Prop where
  run : ScriptRun .idle done s
  oneSlot : OneSlot s
  connected : s.slot ≠ none → s.sysClient ≠ none
  slot : ∀ h, s.slot = some h → ∃ bs between,
    done = bs ++ .start h.call h.scriptFilename :: between ∧ NoStart between
  name : ∀ c name, .start c name ∈ done → (s.calls c).name? = some name
  resolved : ∀ c name stdout stderr,
    s.calls c = .resolved name stdout stderr → ∃ between data,
      ResultArrives done c name between data ∧ NoStart between ∧
      stdout = getProp? (parseMsg data) "stdout" ∧
      stderr = getProp? (parseMsg data) "stderr"

theorem ResultArrives.mono {es more : List ScriptEvent} {c : Nat}
    {name : JsString} {between : List ScriptEvent} {data : JsString}
    (h : ResultArrives es c name between data) :
    ResultArrives (es ++ more) c name between data := by
  obtain ⟨bs, cs, s, rfl, hrun, hcall, hmatch⟩ := h
  exact ⟨bs, cs ++ more, s, by simp, hrun, hcall, hmatch⟩

theorem traced_idle : Traced [] .idle where
  run := .nil _
  oneSlot _ hw := nomatch hw
  connected hslot := absurd rfl hslot
  slot _ hslot := nomatch hslot
  name _ _ hmem := nomatch hmem
  resolved _ _ _ _ hcall := nomatch hcall

/-- A started call keeps its name. -/
theorem name?_step {s s' : ScriptState} {e : ScriptEvent} (hs : OneSlot s)
    (h : scriptStep s e = some s') {c : Nat} {name : JsString}
    (hname : (s.calls c).name? = some name) :
    (s'.calls c).name? = some name := by
  rcases calls_step hs h c with hsame | ⟨_, _, hidle, _⟩ |
    ⟨_, _, hpending, hrejected⟩ | ⟨_, _, _, _, hpending, _, _, _, _, hresolved⟩
  · rw [hsame]
    exact hname
  · rw [hidle] at hname
    cases hname
  · rw [hpending] at hname
    rw [hrejected]
    exact hname
  · rw [hpending] at hname
    rw [hresolved]
    exact hname

theorem traced_step {done : List ScriptEvent} {s s' : ScriptState}
    {e : ScriptEvent} (ht : Traced done s) (h : scriptStep s e = some s') :
    Traced (done ++ [e]) s' where
  run := ht.run.append (.cons h (.nil s'))
  oneSlot := oneSlot_step ht.oneSlot h
  connected := by
    intro hslot
    rcases handlers_step h with ⟨hsame, _, hclient⟩ | ⟨_, _, _, _, hclient⟩
    · rw [ScriptState.slot, hsame] at hslot
      exact hclient (ht.connected hslot)
    · exact hclient
  slot := by
    intro handler hslot
    rcases handlers_step h with ⟨hsame, hnone, _⟩ | ⟨c, name, rfl, hset, _⟩
    · rw [ScriptState.slot, hsame] at hslot
      obtain ⟨bs, between, rfl, hbetween⟩ := ht.slot handler hslot
      refine ⟨bs, between ++ [e], by simp, fun c name hmem => ?_⟩
      rcases List.mem_append.1 hmem with hold | hnew
      · exact hbetween c name hold
      · -- A call started without a socket takes no place, but then there
        -- has never been one to take it.
        rcases hnone with hne | hclient
        · exact hne c name (List.mem_singleton.1 hnew).symm
        · refine ht.connected (fun hempty => ?_) hclient
          cases hslot.symm.trans hempty
    · rw [ScriptState.slot, hset, OrderedMap.get_set_self] at hslot
      obtain rfl := Option.some.inj hslot
      exact ⟨done, [], rfl, fun _ _ => List.not_mem_nil⟩
  name := by
    intro c name hmem
    rcases List.mem_append.1 hmem with hold | hnew
    · exact name?_step ht.oneSlot h (ht.name c name hold)
    · obtain rfl := List.mem_singleton.1 hnew
      rcases start_step h with hrejected | ⟨socket, hpending, _⟩
      · rw [hrejected]
        rfl
      · rw [hpending]
        rfl
  resolved := by
    intro c name stdout stderr hcall
    rcases calls_step ht.oneSlot h c with hsame |
      ⟨_, _, _, ⟨_, hpending, _⟩ | hrejected⟩ | ⟨_, _, _, hrejected⟩ |
      ⟨name', socket, data, handler, hpending, rfl, hslot, rfl, hmatch, hres⟩
    · rw [hsame] at hcall
      obtain ⟨between, data, harrives, hrest⟩ :=
        ht.resolved c name stdout stderr hcall
      exact ⟨between, data, harrives.mono, hrest⟩
    · rw [hpending] at hcall
      cases hcall
    · rw [hrejected] at hcall
      cases hcall
    · rw [hrejected] at hcall
      cases hcall
    · -- The handler's place was taken by this call, and by none since.
      obtain ⟨bs, between, hdone, hnone⟩ := ht.slot handler hslot
      have hname := ht.name handler.call handler.scriptFilename
        (by rw [hdone]; simp)
      rw [hpending] at hname
      obtain rfl := Option.some.inj hname
      rw [hres] at hcall
      obtain ⟨rfl, rfl, rfl⟩ := ScriptCall.resolved.inj hcall
      refine ⟨between, data, ⟨bs, [], s, by rw [hdone], hdone ▸ ht.run, ?_,
        hmatch⟩, hnone, rfl, rfl⟩
      rw [hpending]
      rfl

theorem traced_run {es : List ScriptEvent} {s : ScriptState}
    (h : ScriptRun .idle es s) : Traced es s :=
  h.history (fun ht hstep => traced_step ht hstep) traced_idle

/-- A call that is resolved was resolved by a result with its name, which
came before the next call was started. -/
theorem resolved_origin {es : List ScriptEvent} {s : ScriptState}
    (h : ScriptRun .idle es s) {c : Nat} {name : JsString}
    {stdout stderr : JsValue}
    (hcall : s.calls c = .resolved name stdout stderr) :
    ∃ between data, ResultArrives es c name between data ∧ NoStart between ∧
      stdout = getProp? (parseMsg data) "stdout" ∧
      stderr = getProp? (parseMsg data) "stderr" :=
  (traced_run h).resolved c name stdout stderr hcall

def ScriptCall.isSettled : ScriptCall → Bool
  | .resolved _ _ _ => true
  | .rejected _ => true
  | _ => false

/-- A call that is settled stays as it is. -/
theorem settled_run {s s' : ScriptState} {es : List ScriptEvent}
    (hs : OneSlot s) (h : ScriptRun s es s') {c : Nat}
    (hcall : (s.calls c).isSettled = true) : s'.calls c = s.calls c := by
  induction h with
  | nil s => rfl
  | @cons s t s' e es hstep hrest ih =>
      have hsame : t.calls c = s.calls c := by
        rcases calls_step hs hstep c with hsame | ⟨_, _, hidle, _⟩ |
          ⟨_, _, hpending, _⟩ | ⟨_, _, _, _, hpending, _⟩
        · exact hsame
        · rw [hidle] at hcall
          cases hcall
        · rw [hpending] at hcall
          cases hcall
        · rw [hpending] at hcall
          cases hcall
      rw [← hsame] at hcall ⊢
      exact ih (oneSlot_step hs hstep) hcall

/-- From the start of a call to the next one its handler has the place. -/
theorem slot_run {s s' : ScriptState} {es : List ScriptEvent}
    (h : ScriptRun s es s') (hnone : NoStart es) : s'.slot = s.slot := by
  induction h with
  | nil s => rfl
  | @cons s t s' e es hstep hrest ih =>
      have hlater : NoStart es := fun c name hmem =>
        hnone c name (List.mem_cons_of_mem e hmem)
      rcases handlers_step hstep with ⟨hsame, _⟩ | ⟨c, name, rfl, _⟩
      · rw [ih hlater, ScriptState.slot, hsame]
        rfl
      · exact absurd List.mem_cons_self (hnone c name)

/-- A result that comes before the next call is started resolves the call,
unless an earlier one has. -/
theorem resolved_of_noStart {es : List ScriptEvent} {s : ScriptState}
    (h : ScriptRun .idle es s) {c : Nat} {name : JsString}
    {between : List ScriptEvent} {data : JsString}
    (harrives : ResultArrives es c name between data)
    (hnone : NoStart between) :
    ∃ stdout stderr, s.calls c = .resolved name stdout stderr := by
  obtain ⟨bs, cs, t, rfl, ht, hwaits, hmatch⟩ := harrives
  have htraced := traced_run ht
  have hname := htraced.name c name (by simp)
  have hrest := Run.drop ht h
  -- The call as the result finds it.
  cases hcall : t.calls c with
  | idle =>
      rw [hcall] at hname
      cases hname
  | rejected name' =>
      rw [hcall] at hwaits
      cases hwaits
  | resolved name' stdout stderr =>
      rw [hcall] at hname
      obtain rfl := Option.some.inj hname
      refine ⟨stdout, stderr, ?_⟩
      rw [settled_run htraced.oneSlot hrest (by rw [hcall]; rfl), hcall]
  | pending name' socket =>
      rw [hcall] at hname
      obtain rfl := Option.some.inj hname
      have hslot : t.slot = some ⟨c, name'⟩ := by
        obtain ⟨u, hu, hfrom⟩ := Run.append_inv ht
        cases hfrom with
        | @cons _ v _ _ _ hstart hbetween =>
            rcases start_step hstart with hrejected | ⟨_, _, hplace⟩
            · have hone := oneSlot_step (traced_run hu).oneSlot hstart
              have hsame := settled_run hone hbetween
                (c := c) (by rw [hrejected]; rfl)
              rw [hcall, hrejected] at hsame
              cases hsame
            · rw [slot_run hbetween hnone, hplace]
      cases hrest with
      | @cons _ u _ _ _ hstep hlater =>
          have hresolved :=
            message_step htraced.oneSlot hstep hslot hcall hmatch
          refine ⟨_, _, (settled_run (oneSlot_step htraced.oneSlot hstep)
            hlater (by rw [hresolved]; rfl)).trans hresolved⟩

/-- Every call whose result arrives is resolved with such a result if and
only if for every such call one arrives before the next call is started. -/
theorem ownResults_iff {es : List ScriptEvent} {s : ScriptState}
    (h : ScriptRun .idle es s) : OwnResults es s ↔ ResultsBeforeNext es := by
  constructor
  · intro hown c name between data harrives
    obtain ⟨_, _, _, hcall⟩ := hown c name between data harrives
    obtain ⟨between', data', harrives', hnone, _⟩ := resolved_origin h hcall
    exact ⟨between', data', harrives', hnone⟩
  · intro hbefore c name between data harrives
    obtain ⟨between', data', harrives', hnone⟩ :=
      hbefore c name between data harrives
    obtain ⟨stdout, stderr, hcall⟩ := resolved_of_noStart h harrives' hnone
    obtain ⟨between'', data'', harrives'', _, rfl, rfl⟩ :=
      resolved_origin h hcall
    exact ⟨between'', data'', harrives'', hcall⟩

/-- The result of a script, as the system sends it. -/
def resultText (scriptFilename : String) : JsString :=
  js ("\x7b\"type\":\"RUN_SCRIPT_RESULT\",\"scriptFilename\":\"" ++
    scriptFilename ++ "\",\"stdout\":\"ok\",\"stderr\":\"\"\x7d")

/-- Two calls, the second started when the first has its result. -/
def oneAfterAnother : List ScriptEvent :=
  [.connect, .start 0 (js "a"), .message (resultText "a"), .start 1 (js "b"),
    .message (resultText "b")]

theorem matches_resultText :
    Matches (parseMsg (resultText "a")) (js "a") ∧
      Matches (parseMsg (resultText "b")) (js "b") :=
  ⟨⟨by decide +kernel, by decide +kernel⟩,
    ⟨by decide +kernel, by decide +kernel⟩⟩

theorem resultsBeforeNext_oneAfterAnother :
    ResultsBeforeNext oneAfterAnother := by
  have hfirst : ([.connect, .start 0 (js "a")].foldlM scriptStep .idle).map
      (fun s => (s.calls 0).isRejected) = some false := by decide +kernel
  have hsecond : ([.connect, .start 0 (js "a"), .message (resultText "a"),
      .start 1 (js "b")].foldlM scriptStep .idle).map
        (fun s => (s.calls 1).isRejected) = some false := by decide +kernel
  intro c name between data ⟨bs, cs, _, hes, _⟩
  have hstart : .start c name ∈ oneAfterAnother := by
    rw [hes]
    simp
  rcases (by simpa [oneAfterAnother] using hstart :
    c = 0 ∧ name = js "a" ∨ c = 1 ∧ name = js "b") with
      ⟨rfl, rfl⟩ | ⟨rfl, rfl⟩
  · obtain ⟨s, hs, hwaits⟩ := Option.map_eq_some_iff.1 hfirst
    exact ⟨[], resultText "a", ⟨[.connect],
      [.start 1 (js "b"), .message (resultText "b")], s, rfl,
      run_iff_foldlM_option.1 hs, hwaits, matches_resultText.1⟩,
      fun _ _ => List.not_mem_nil⟩
  · obtain ⟨s, hs, hwaits⟩ := Option.map_eq_some_iff.1 hsecond
    exact ⟨[], resultText "b", ⟨[.connect, .start 0 (js "a"),
      .message (resultText "a")], [], s, rfl, run_iff_foldlM_option.1 hs,
      hwaits, matches_resultText.2⟩, fun _ _ => List.not_mem_nil⟩

/-- Each has its own. -/
theorem ownResults_iff_sequential :
    ∃ s, ScriptRun .idle oneAfterAnother s ∧
      ResultsBeforeNext oneAfterAnother ∧ OwnResults oneAfterAnother s := by
  have hend : (oneAfterAnother.foldlM scriptStep .idle).isSome = true := by
    decide +kernel
  obtain ⟨s, hs⟩ := Option.isSome_iff_exists.1 hend
  have hrun := run_iff_foldlM_option.1 hs
  exact ⟨s, hrun, resultsBeforeNext_oneAfterAnother,
    (ownResults_iff hrun).2 resultsBeforeNext_oneAfterAnother⟩

/-- Two calls at once: both results arrive, and the first call waits on. -/
theorem result_lost_overlapping :
    ∃ s, ScriptRun .idle [.connect, .start 0 (js "a"), .start 1 (js "b"),
        .message (resultText "a"), .message (resultText "b")] s ∧
      ¬ OwnResults [.connect, .start 0 (js "a"), .start 1 (js "b"),
        .message (resultText "a"), .message (resultText "b")] s := by
  have hbefore : ([.connect, .start 0 (js "a"), .start 1 (js "b")].foldlM
      scriptStep .idle).map (fun s => (s.calls 0).isRejected) =
        some false := by decide +kernel
  have hend : ([.connect, .start 0 (js "a"), .start 1 (js "b"),
      .message (resultText "a"), .message (resultText "b")].foldlM scriptStep
        .idle).map (fun s => (s.calls 0).isSettled) = some false := by
    decide +kernel
  obtain ⟨t, ht, hwaits⟩ := Option.map_eq_some_iff.1 hbefore
  obtain ⟨s, hs, hunsettled⟩ := Option.map_eq_some_iff.1 hend
  refine ⟨s, run_iff_foldlM_option.1 hs, fun hown => ?_⟩
  obtain ⟨_, _, _, hresolved⟩ := hown 0 (js "a") [.start 1 (js "b")]
    (resultText "a") ⟨[.connect], [.message (resultText "b")], t, rfl,
      run_iff_foldlM_option.1 ht, hwaits, matches_resultText.1⟩
  rw [hresolved] at hunsettled
  cases hunsettled

end IotHome.Server
