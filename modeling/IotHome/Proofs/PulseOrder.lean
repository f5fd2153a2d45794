import IotHome.Lib.Relay
import IotHome.Proofs.DeviceRegistry
import IotHome.Server.App
import Mathlib.Algebra.Order.Field.Rat
import Mathlib.Logic.Relation

/-!
# The order in which pulses reach the front end

The front end keeps the pulse that came last. `HomePage` is a relay of the
pulses: its pulse handler takes up one at a time, and each control message
joins in with the last one. So a pulse can come after a later one only from a
control message, and `sentInOrder_iff` says when.
-/

namespace IotHome.Server

open IotHome.Lib

/-! ## The relay -/

/-- What a handler of `HomePage` will send. -/
def Task.held (t : Task) : Option Held :=
  match t.side, t.stage with
  | .homePage, .querying pulse _ _ seen => some ⟨pulse, seen, t.forPulse⟩
  | _, _ => none

def heldBy (tasks : List Task) (i : Nat) : Option Held :=
  (tasks[i]?).bind Task.held

def App.relay (s : App) : Relay where
  arrived := s.pulses.length
  last := (s.side .homePage).lastSysPulse
  block := (s.side .homePage).sysPulseHandlerBlock
  held := heldBy s.tasks
  sent := s.frontEnd.sent.map fun m => m.content.pulse

theorem length_sent_relay (s : App) :
    s.relay.sent.length = s.frontEnd.sent.length := List.length_map _

theorem heldBy_append (tasks : List Task) (t : Task) :
    heldBy (tasks ++ [t]) =
      Function.update (heldBy tasks) tasks.length t.held := by
  funext i
  rw [heldBy, List.getElem?_append]
  by_cases hi : i = tasks.length
  · simp [hi]
  · rw [Function.update_of_ne hi, heldBy]
    split
    · rfl
    · have hlt : tasks.length < i := by omega
      rw [List.getElem?_eq_none (l := tasks) (by omega),
        List.getElem?_eq_none (by simp; omega)]

/-- A handler that has nothing to send leaves the relay as it is. -/
theorem heldBy_append_none (tasks : List Task) {t : Task} (h : t.held = none) :
    heldBy (tasks ++ [t]) = heldBy tasks := by
  have hfree : heldBy tasks tasks.length = none := by simp [heldBy]
  rw [heldBy_append, h, ← hfree, Function.update_eq_self]

theorem heldBy_set {tasks : List Task} {i : Nat} (t : Task)
    (hi : i < tasks.length) :
    heldBy (tasks.set i t) = Function.update (heldBy tasks) i t.held := by
  funext j
  rw [heldBy, List.getElem?_set]
  by_cases hj : i = j
  · subst hj
    simp [hi]
  · rw [if_neg hj, Function.update_of_ne (Ne.symm hj), heldBy]

theorem heldBy_set_same {tasks : List Task} {i : Nat} {t t' : Task}
    (ht : tasks[i]? = some t) (h : t'.held = t.held) :
    heldBy (tasks.set i t') = heldBy tasks := by
  have hheld : heldBy tasks i = t.held := by rw [heldBy, ht]; rfl
  rw [heldBy_set t' (List.getElem?_eq_some_iff.1 ht).1, h, ← hheld,
    Function.update_eq_self]

/-! ## What the steps do to it -/

/-- Only handlers of control messages wait for a device to be set. -/
def App.SettingControls (s : App) : Prop :=
  ∀ t ∈ s.tasks, ∀ device query, t.stage = .setting device query →
    t.forPulse = false

variable {db : DevicesDb} {port : Nat}

theorem App.SettingControls.set {s s' : App} (h : s.SettingControls)
    {task : Nat} {t : Task} {stage : Stage}
    (htasks : s'.tasks = s.tasks.set task { t with stage := stage })
    (hstage : ∀ device query, stage ≠ .setting device query) :
    s'.SettingControls := by
  intro t' ht' device query hsetting
  rw [htasks] at ht'
  rcases List.mem_or_eq_of_mem_set ht' with hold | rfl
  · exact h t' hold device query hsetting
  · exact absurd hsetting (hstage device query)

theorem App.SettingControls.append {s s' : App} (h : s.SettingControls)
    {t : Task} (htasks : s'.tasks = s.tasks ++ [t])
    (ht : ∀ device query, t.stage = .setting device query →
      t.forPulse = false) : s'.SettingControls := by
  intro t' ht' device query hsetting
  rw [htasks] at ht'
  rcases List.mem_append.1 ht' with hold | hnew
  · exact h t' hold device query hsetting
  · obtain rfl := List.mem_singleton.1 hnew
    exact ht device query hsetting

theorem relay_record (s : App) (device : Nat) (states : Option PinStates) :
    (s.record db device states).relay = s.relay := by
  obtain ⟨registry, log, heq⟩ := s.record_eq device states
  rw [heq]
  rfl

theorem settingControls_handleSysPulse {s : App} (h : s.SettingControls)
    (pulse : Nat) (online : JsString → Bool) (side : Side) :
    (s.handleSysPulse db pulse online side).SettingControls := by
  rw [App.handleSysPulse]
  split
  · exact h
  · exact h.append rfl fun device query hsetting => by cases hsetting

/-- A pulse that has just arrived is taken up, if nothing else is under
way. -/
theorem relay_handleSysPulse {s : App} {pulse : Nat}
    (hpulse : s.pulses.length = pulse + 1) (online : JsString → Bool)
    (side : Side) :
    s.relay.Quiet (s.handleSysPulse db pulse online side).relay := by
  rw [App.handleSysPulse]
  split
  · exact .same
  · next hblock =>
      cases side with
      | homePage =>
          have htake : s.relay.Quiet (s.relay.takeUp s.tasks.length pulse) :=
            .takeUp s.tasks.length pulse hpulse (Bool.not_eq_true _ ▸ hblock)
          convert htake using 1
          refine Relay.ext rfl rfl rfl ?_ rfl
          refine (heldBy_append _ _).trans ?_
          rw [Relay.takeUp, length_sent_relay]
          rfl
      | publicServer =>
          convert Relay.Quiet.same using 1
          exact Relay.ext rfl rfl rfl (heldBy_append_none _ rfl) rfl

theorem pulses_handleSysPulse (s : App) (pulse : Nat)
    (online : JsString → Bool) (side : Side) :
    (s.handleSysPulse db pulse online side).pulses = s.pulses := by
  rw [App.handleSysPulse]
  split
  · rfl
  · rfl

theorem settingControls_sysMessage {s : App} (h : s.SettingControls)
    (data : JsString) (online : JsString → Bool) :
    (s.sysMessage db data online).SettingControls := by
  rcases s.sysMessage_cases data online with heq | ⟨m, heq⟩
  · rwa [heq]
  · rw [heq]
    exact List.foldlRecOn (motive := App.SettingControls) _ _ h
      fun s' hs' side _ => settingControls_handleSysPulse hs' _ online side

theorem relay_sysMessage (s : App) (data : JsString)
    (online : JsString → Bool) :
    Relation.ReflTransGen Relay.Quiet s.relay
      (s.sysMessage db data online).relay := by
  rcases s.sysMessage_cases data online with heq | ⟨m, heq⟩
  · rw [heq]
  · have harrived : s.relay.arrive =
        ({ s with pulses := s.pulses ++ [m] } : App).relay :=
      Relay.ext (by simp [App.relay, Relay.arrive]) rfl rfl rfl rfl
    have hall : (s.sysMessage db data online).pulses.length =
          s.pulses.length + 1 ∧ Relation.ReflTransGen Relay.Quiet
        s.relay.arrive (s.sysMessage db data online).relay := by
      rw [heq]
      refine List.foldlRecOn (motive := fun s' : App =>
        s'.pulses.length = s.pulses.length + 1 ∧
          Relation.ReflTransGen Relay.Quiet s.relay.arrive s'.relay) _ _
        ⟨List.length_append, harrived ▸ .refl⟩ fun s' hs' side _ => ?_
      obtain ⟨hpulse, hquiet⟩ := hs'
      rw [pulses_handleSysPulse]
      exact ⟨hpulse, hquiet.tail (relay_handleSysPulse hpulse online side)⟩
    exact .head .arrive hall.2

theorem relay_message (s : App) (side : Side) (data : JsString) :
    (s.message side data).relay = s.relay := by
  rw [App.message]
  split
  · rfl
  · refine Relay.ext rfl rfl rfl (heldBy_append_none _ ?_) rfl
    cases side with
    | homePage => rfl
    | publicServer => rfl

theorem held_of_setting {t : Task} {device : Nat} {query : List Char}
    (h : t.stage = .setting device query) : t.held = none := by
  rw [Task.held, h]
  cases t.side with
  | homePage => rfl
  | publicServer => rfl

/-- A stage behind which nothing is sent. -/
theorem relay_setStage_same {s : App} {task : Nat} {t : Task} {stage : Stage}
    (ht : s.tasks[task]? = some t)
    (hheld : ({ t with stage := stage } : Task).held = t.held) :
    (s.setStage task t stage).relay = s.relay :=
  Relay.ext rfl rfl rfl (heldBy_set_same ht hheld) rfl

/-- A control message joins in, if a pulse has come before. -/
theorem relay_answered {s : App} (h : s.SettingControls) {task : Nat}
    {t : Task} (ht : s.tasks[task]? = some t) {device : Nat}
    {query : List Char} (hstage : t.stage = .setting device query)
    (states : Option PinStates) (online : JsString → Bool) :
    s.relay.Quiet (s.answered db task t device states online).relay := by
  have hcontrol : t.forPulse = false :=
    h t (List.mem_of_getElem? ht) device query hstage
  have hrecord : (s.record db device states).relay = s.relay :=
    relay_record s device states
  rw [← hrecord]
  have htask : (s.record db device states).tasks[task]? = some t := by
    rwa [App.tasks_record]
  rw [App.answered]
  generalize s.record db device states = s at htask ⊢
  obtain ⟨side, forPulse, stage⟩ := t
  obtain rfl : forPulse = false := hcontrol
  split
  · convert Relay.Quiet.same using 1
    refine relay_setStage_same htask ?_
    rw [held_of_setting hstage]
    cases side with
    | homePage => rfl
    | publicServer => rfl
  · next pulse hlast =>
      cases side with
      | homePage =>
          have hjoin : s.relay.Quiet (s.relay.join task pulse) :=
            .join task pulse hlast
          convert hjoin using 1
          refine Relay.ext rfl rfl rfl ?_ rfl
          refine (heldBy_set _ (List.getElem?_eq_some_iff.1 htask).1).trans ?_
          rw [Relay.join, length_sent_relay]
          rfl
      | publicServer =>
          convert Relay.Quiet.same using 1
          exact relay_setStage_same (s := s.act db _) htask
            (held_of_setting hstage).symm

theorem held_of_querying {t : Task} (hside : t.side = .homePage)
    {pulse : Nat} {devices waiting : List Nat} {seen : Nat}
    (hstage : t.stage = .querying pulse devices waiting seen) :
    t.held = some ⟨pulse, seen, t.forPulse⟩ := by
  rw [Task.held, hside, hstage]

theorem relay_resume_homePage {s : App} {task : Nat} {t : Task}
    (ht : s.tasks[task]? = some t) (hside : t.side = .homePage) (pulse : Nat)
    (devices : List Nat) (seen : Nat) :
    ((s.finish port t pulse devices).setStage task t .done).relay =
      s.relay.send task ⟨pulse, seen, t.forPulse⟩ := by
  obtain ⟨side, forPulse, stage⟩ := t
  obtain rfl : side = .homePage := hside
  have hlength := (List.getElem?_eq_some_iff.1 ht).1
  cases forPulse with
  | true =>
      exact Relay.ext (List.length_modify ..) rfl rfl (heldBy_set _ hlength)
        List.map_append
  | false =>
      exact Relay.ext (List.length_modify ..) rfl rfl (heldBy_set _ hlength)
        List.map_append

theorem relay_resume_publicServer {s : App} {task : Nat} {t : Task}
    (ht : s.tasks[task]? = some t) (hside : t.side = .publicServer)
    (pulse : Nat) (devices : List Nat) :
    ((s.finish port t pulse devices).setStage task t .done).relay =
      s.relay := by
  obtain ⟨side, forPulse, stage⟩ := t
  obtain rfl : side = .publicServer := hside
  simp only [App.finish, App.finishPublicServer]
  split
  · split
    · exact Relay.ext (List.length_modify ..) rfl rfl (heldBy_set_same ht rfl)
        rfl
    · exact Relay.ext (List.length_modify ..) rfl rfl (heldBy_set_same ht rfl)
        rfl
  · exact Relay.ext (List.length_modify ..) rfl rfl (heldBy_set_same ht rfl)
      rfl

theorem settingControls_step {s s' : App} {e : AppEvent}
    (h : appStep db port s e = some s') (hs : s.SettingControls) :
    s'.SettingControls := by
  cases e with
  | connect =>
      obtain rfl := Option.some.inj h
      rw [App.subscribe]
      split
      · exact hs
      · exact hs
  | close socket =>
      obtain rfl := Option.some.inj h
      exact hs
  | setDevice n =>
      obtain rfl := Option.some.inj h
      exact hs
  | sysMessage data online =>
      obtain rfl := Option.some.inj h
      exact settingControls_sysMessage hs data online
  | message side data =>
      obtain rfl := Option.some.inj h
      rw [App.message]
      split
      · exact hs
      · exact hs.append rfl fun _ _ _ => rfl
  | answered task net online =>
      obtain ⟨t, device, query, d, ht, hstage, _, hcase⟩ :=
        appStep_answered h
      rcases hcase with rfl | ⟨_, states, _, rfl⟩
      · exact hs.set rfl fun _ _ hsetting => by cases hsetting
      · have htasks : (s.record db device states).tasks = s.tasks :=
          s.tasks_record device states
        rw [App.answered]
        split
        · exact hs.set (by rw [App.setStage, htasks])
            fun _ _ hsetting => by cases hsetting
        · exact hs.set (by rw [App.setStage, App.act, htasks])
            fun _ _ hsetting => by cases hsetting
  | queried task device net isOnline =>
      obtain ⟨t, pulse, devices, waiting, seen, _, _, _, rfl⟩ :=
        appStep_queried h
      exact hs.set (by rw [App.setStage, App.tasks_record])
        fun _ _ hsetting => by cases hsetting
  | resume task =>
      obtain ⟨t, pulse, devices, seen, _, _, rfl⟩ := appStep_resume h
      exact hs.set (by rw [App.setStage, App.tasks_finish])
        fun _ _ hsetting => by cases hsetting

/-- Without a pulse going on to the front end, the relay passes on nothing. -/
theorem relay_quiet {s s' : App} {e : AppEvent} (hs : s.SettingControls)
    (h : appStep db port s e = some s') (hnot : ¬ s.Forwards e) :
    Relation.ReflTransGen Relay.Quiet s.relay s'.relay := by
  cases e with
  | connect =>
      obtain rfl := Option.some.inj h
      rw [App.subscribe]
      split
      · exact .refl
      · exact .refl
  | close socket =>
      obtain rfl := Option.some.inj h
      exact .refl
  | setDevice n =>
      obtain rfl := Option.some.inj h
      exact .refl
  | sysMessage data online =>
      obtain rfl := Option.some.inj h
      exact relay_sysMessage s data online
  | message side data =>
      obtain rfl := Option.some.inj h
      rw [relay_message]
  | answered task net online =>
      obtain ⟨t, device, query, d, ht, hstage, _, hcase⟩ :=
        appStep_answered h
      rcases hcase with rfl | ⟨_, states, _, rfl⟩
      · rw [relay_setStage_same ht]
        rw [held_of_setting hstage]
        cases t.side with
        | homePage => rfl
        | publicServer => rfl
      · exact .single (relay_answered hs ht hstage states online)
  | queried task device net isOnline =>
      obtain ⟨t, pulse, devices, waiting, seen, ht, hstage, _, rfl⟩ :=
        appStep_queried h
      rw [relay_setStage_same, relay_record]
      · rwa [App.tasks_record]
      · obtain ⟨side, forPulse, stage⟩ := t
        obtain rfl : stage = .querying pulse devices waiting seen := hstage
        cases side with
        | homePage => rfl
        | publicServer => rfl
  | resume task =>
      obtain ⟨t, pulse, devices, seen, ht, hstage, rfl⟩ := appStep_resume h
      cases hside : t.side with
      | homePage => exact absurd ⟨task, t, rfl, ht, hside⟩ hnot
      | publicServer => rw [relay_resume_publicServer ht hside]

theorem relay_forwards {s s' : App} {e : AppEvent}
    (h : appStep db port s e = some s') (hforwards : s.Forwards e) :
    ∃ task t pulse devices seen, e = .resume task ∧
      s.tasks[task]? = some t ∧ t.side = .homePage ∧
      t.stage = .querying pulse devices [] seen ∧
      s'.relay = s.relay.send task ⟨pulse, seen, t.forPulse⟩ := by
  obtain ⟨task, t, rfl, ht, hside⟩ := hforwards
  obtain ⟨t', pulse, devices, seen, ht', hstage, rfl⟩ := appStep_resume h
  obtain rfl := Option.some.inj (ht.symm.trans ht')
  exact ⟨task, t, pulse, devices, seen, rfl, ht, hside, hstage,
    relay_resume_homePage ht hside pulse devices seen⟩

theorem relayOk_of_run {es : List AppEvent} {s : App}
    (h : AppRun db port .start es s) : s.SettingControls ∧ s.relay.Ok := by
  refine h.invariant (P := fun s => s.SettingControls ∧ s.relay.Ok)
    (fun {s e s'} hs hstep => ⟨settingControls_step hstep hs.1, ?_⟩) ?_
  · by_cases hforwards : s.Forwards e
    · obtain ⟨task, t, pulse, devices, seen, rfl, ht, hside, hstage, heq⟩ :=
        relay_forwards hstep hforwards
      rw [heq]
      refine hs.2.send ?_
      show heldBy s.tasks task = _
      rw [heldBy, ht]
      exact held_of_querying hside hstage
    · exact (relay_quiet hs.1 hstep hforwards).rec hs.2
        fun _ hquiet hok => hok.quiet hquiet
  · refine ⟨fun t ht => absurd ht List.not_mem_nil, ?_⟩
    exact Relay.ok_start

/-! ## Times -/

/-- When a pulse was made. -/
def PulseMsg.ts (m : PulseMsg) : Option ℚ :=
  match lastFor (js "ts") m with
  | some (.json (.num ts)) => some ((ts.mantissa : ℚ) / 10 ^ ts.scale)
  | _ => none

/-- The times of the pulses as they came. -/
def App.times (s : App) : List (Option ℚ) := s.pulses.map PulseMsg.ts

def App.tsOf (s : App) (pulse : Nat) : Option ℚ :=
  (s.pulses[pulse]?).bind PulseMsg.ts

/-- The times of the pulses that went out. -/
def App.sentTimes (s : App) : List (Option ℚ) :=
  s.frontEnd.sent.map fun m => s.tsOf m.content.pulse

def NonDecreasing (times : List (Option ℚ)) : Prop :=
  ∃ xs : List ℚ, times = xs.map some ∧ xs.Pairwise (· ≤ ·)

/-- A control message is about to pass on a pulse that is older than one that
has gone out since it joined. -/
def App.Stale (s : App) (e : AppEvent) : Prop :=
  ∃ task t pulse devices seen, e = .resume task ∧
    s.tasks[task]? = some t ∧ t.side = .homePage ∧ t.forPulse = false ∧
    t.stage = .querying pulse devices [] seen ∧
    ∃ m ∈ s.frontEnd.sent.drop seen, ∃ x ∈ s.tsOf pulse,
      ∃ y ∈ s.tsOf m.content.pulse, x < y

theorem PulseMsg.ts_set (m : PulseMsg) {name : String} (value : PulseField)
    (h : js name ≠ js "ts") : (m.set name value).ts = m.ts := by
  rw [PulseMsg.ts, PulseMsg.set, OrderedMap.lastFor_setEntry_ne h]
  rfl

theorem map_ts_modify (pulses : List PulseMsg) (pulse : Nat)
    {f : PulseMsg → PulseMsg} (hf : ∀ m, (f m).ts = m.ts) :
    (pulses.modify pulse f).map PulseMsg.ts = pulses.map PulseMsg.ts := by
  refine List.ext_getElem? fun i => ?_
  rw [List.getElem?_map, List.getElem?_map, List.getElem?_modify]
  cases pulses[i]? with
  | none => rfl
  | some m =>
      by_cases hi : pulse = i
      · simp [hi, hf]
      · simp [hi]

theorem times_finish (s : App) (t : Task) (pulse : Nat) (devices : List Nat) :
    (s.finish port t pulse devices).times = s.times := by
  have hdevices : js "devices" ≠ js "ts" := by decide
  have hport : js "port" ≠ js "ts" := by decide
  rw [App.finish]
  split
  · rw [App.finishHomePage]
    split
    · exact map_ts_modify _ _ fun m => m.ts_set _ hdevices
    · exact map_ts_modify _ _ fun m => m.ts_set _ hdevices
  · have hboth : ∀ m : PulseMsg, (if t.forPulse then
        (m.set "devices" (.devices devices)).set "port"
          (.json (.num (Dec.ofInt port)))
        else m.set "devices" (.devices devices)).ts = m.ts := by
      intro m
      split
      · rw [PulseMsg.ts_set _ _ hport, PulseMsg.ts_set _ _ hdevices]
      · rw [PulseMsg.ts_set _ _ hdevices]
    simp only [App.finishPublicServer]
    split
    · split
      · refine map_ts_modify _ _ fun m => ?_
        rw [PulseMsg.ts_set _ _ hport, PulseMsg.ts_set _ _ hdevices]
      · exact map_ts_modify _ _ fun m => m.ts_set _ hdevices
    · exact map_ts_modify _ _ hboth

theorem times_record (s : App) (device : Nat) (states : Option PinStates) :
    (s.record db device states).times = s.times := by
  rw [App.times, App.pulses_record]
  rfl

theorem times_sysMessage (s : App) (data : JsString)
    (online : JsString → Bool) :
    s.times <+: (s.sysMessage db data online).times := by
  rcases s.sysMessage_cases data online with heq | ⟨m, heq⟩
  · exact heq.symm ▸ List.prefix_refl _
  · rw [heq]
    refine List.foldlRecOn (motive := fun s' : App => s.times <+: s'.times)
      _ _ ?_ fun s' hs' side _ => ?_
    · rw [App.times, App.times, List.map_append]
      exact List.prefix_append _ _
    · rwa [App.times, App.times, pulses_handleSysPulse]

/-- The times of pulses do not change, there only come more. -/
theorem times_step {s s' : App} {e : AppEvent}
    (h : appStep db port s e = some s') : s.times <+: s'.times := by
  cases e with
  | connect =>
      obtain rfl := Option.some.inj h
      rw [App.subscribe]
      split
      · exact List.prefix_refl _
      · exact List.prefix_refl _
  | close socket =>
      obtain rfl := Option.some.inj h
      exact List.prefix_refl _
  | setDevice n =>
      obtain rfl := Option.some.inj h
      exact List.prefix_refl _
  | sysMessage data online =>
      obtain rfl := Option.some.inj h
      exact times_sysMessage s data online
  | message side data =>
      obtain rfl := Option.some.inj h
      rw [App.message]
      split
      · exact List.prefix_refl _
      · exact List.prefix_refl _
  | answered task net online =>
      obtain ⟨t, device, query, d, _, _, _, hcase⟩ := appStep_answered h
      rcases hcase with rfl | ⟨_, states, _, rfl⟩
      · exact List.prefix_refl _
      · have htimes : (s.record db device states).times = s.times :=
          times_record s device states
        rw [App.answered, ← htimes]
        split
        · exact List.prefix_refl _
        · exact List.prefix_refl _
  | queried task device net isOnline =>
      obtain ⟨t, pulse, devices, waiting, seen, _, _, _, rfl⟩ :=
        appStep_queried h
      exact (times_record s device _).symm ▸ List.prefix_refl _
  | resume task =>
      obtain ⟨t, pulse, devices, seen, _, _, rfl⟩ := appStep_resume h
      exact (times_finish s t pulse devices).symm ▸ List.prefix_refl _

/-- In a longer run a pulse has the time that it had. -/
theorem times_of_run {s s' : App} {es : List AppEvent}
    (h : AppRun db port s es s') : s.times <+: s'.times :=
  h.invariant (P := fun u => s.times <+: u.times)
    (fun hs hstep => hs.trans (times_step hstep)) (List.prefix_refl _)

/-! ## The order -/

/-- The pulses that went out. -/
def App.sentPulses (s : App) : List Nat :=
  s.frontEnd.sent.map fun m => m.content.pulse

/-- The time of a pulse, where all have one. -/
def timeAt (xs : List ℚ) (pulse : Nat) : ℚ := (xs[pulse]?).getD 0

theorem tsOf_eq {s : App} {xs : List ℚ} (h : s.times <+: xs.map some)
    {pulse : Nat} (hpulse : pulse < s.pulses.length) :
    s.tsOf pulse = some (timeAt xs pulse) := by
  have hget : s.times[pulse]? = (xs.map some)[pulse]? := by
    obtain ⟨rest, hrest⟩ := h
    rw [← hrest,
      List.getElem?_append_left (by rwa [App.times, List.length_map])]
  rw [App.times, List.getElem?_map, List.getElem?_map,
    List.getElem?_eq_getElem hpulse] at hget
  rw [App.tsOf, timeAt, List.getElem?_eq_getElem hpulse]
  cases hx : xs[pulse]? with
  | none => rw [hx] at hget; cases hget
  | some x =>
      rw [hx] at hget
      exact Option.some.inj hget

theorem timeAt_le {xs : List ℚ} (h : xs.Pairwise (· ≤ ·)) {p q : Nat}
    (hle : p ≤ q) (hq : q < xs.length) : timeAt xs p ≤ timeAt xs q := by
  rw [timeAt, timeAt, List.getElem?_eq_getElem hq,
    List.getElem?_eq_getElem (Nat.lt_of_le_of_lt hle hq)]
  rcases Nat.lt_or_eq_of_le hle with hlt | rfl
  · exact List.pairwise_iff_getElem.1 h p q _ hq hlt
  · exact le_refl _

theorem nonDecreasing_map_iff {pulses : List Nat} {ts : Nat → Option ℚ}
    {time : Nat → ℚ} (h : ∀ p ∈ pulses, ts p = some (time p)) :
    NonDecreasing (pulses.map ts) ↔
      pulses.Pairwise fun p q => time p ≤ time q := by
  have hmap : pulses.map ts = (pulses.map time).map some := by
    rw [List.map_map]
    exact List.map_congr_left h
  rw [← List.pairwise_map (f := time) (R := (· ≤ ·)), NonDecreasing, hmap]
  constructor
  · rintro ⟨xs, heq, hsorted⟩
    rwa [List.map_injective_iff.2 (Option.some_injective ℚ) heq]
  · exact fun hsorted => ⟨_, rfl, hsorted⟩

theorem sentPulses_step {s s' : App} {e : AppEvent}
    (h : appStep db port s e = some s') :
    s'.sentPulses = s.sentPulses ∨
      ∃ x, s'.sentPulses = s.sentPulses ++ [x] := by
  by_cases hforwards : s.Forwards e
  · obtain ⟨content, heq⟩ := appStep_forwards h hforwards
    refine .inr ⟨content.pulse, ?_⟩
    rw [App.sentPulses, heq]
    exact List.map_append
  · refine .inl ?_
    rw [App.sentPulses, (appStep_quiet h hforwards).sent_eq]
    rfl

theorem stale_iff {s : App} {task : Nat} {t : Task}
    (ht : s.tasks[task]? = some t) (hside : t.side = .homePage)
    {pulse : Nat} {devices : List Nat} {seen : Nat}
    (hstage : t.stage = .querying pulse devices [] seen) :
    s.Stale (.resume task) ↔ t.forPulse = false ∧
      ∃ m ∈ s.frontEnd.sent.drop seen, ∃ x ∈ s.tsOf pulse,
        ∃ y ∈ s.tsOf m.content.pulse, x < y := by
  constructor
  · rintro ⟨task', t', pulse', devices', seen', htask, ht', _, hcontrol,
      hstage', hlater⟩
    obtain rfl := AppEvent.resume.inj htask
    obtain rfl := Option.some.inj (ht.symm.trans ht')
    obtain ⟨rfl, rfl, _, rfl⟩ := Stage.querying.inj (hstage.symm.trans hstage')
    exact ⟨hcontrol, hlater⟩
  · rintro ⟨hcontrol, hlater⟩
    exact ⟨task, t, pulse, devices, seen, rfl, ht, hside, hcontrol, hstage,
      hlater⟩

/-- What goes out with one event is not older than what went out before just
if it does not come from a control message that has been overtaken. -/
theorem inOrder_step_iff {s s' : App} {e : AppEvent} {xs : List ℚ}
    (hok : s.relay.Ok) (htimes : s.times <+: xs.map some)
    (hsorted : xs.Pairwise (· ≤ ·)) (h : appStep db port s e = some s') :
    (∀ x, s'.sentPulses = s.sentPulses ++ [x] →
      ∀ y ∈ s.sentPulses, timeAt xs y ≤ timeAt xs x) ↔ ¬ s.Stale e := by
  by_cases hforwards : s.Forwards e
  · obtain ⟨task, t, pulse, devices, seen, rfl, ht, hside, hstage, heq⟩ :=
      relay_forwards h hforwards
    have hheld : s.relay.held task = some ⟨pulse, seen, t.forPulse⟩ := by
      show heldBy s.tasks task = _
      rw [heldBy, ht]
      exact held_of_querying hside hstage
    have hlength : s.pulses.length ≤ xs.length := by
      simpa [App.times] using htimes.length_le
    have hlt : ∀ p, (∃ l, s.relay.last = some l ∧ p ≤ l) →
        p < s.pulses.length := by
      rintro p ⟨l, hl, hle⟩
      exact Nat.lt_of_le_of_lt hle (hok.last_lt l hl)
    have hsent : s'.sentPulses = s.sentPulses ++ [pulse] :=
      congrArg Relay.sent heq
    have hnew : (∀ x, s'.sentPulses = s.sentPulses ++ [x] →
        ∀ y ∈ s.sentPulses, timeAt xs y ≤ timeAt xs x) ↔
        ∀ y ∈ s.sentPulses, timeAt xs y ≤ timeAt xs pulse := by
      rw [hsent]
      simp
    have horder : (∀ y ∈ s.sentPulses, timeAt xs y ≤ timeAt xs pulse) ↔
        (t.forPulse = false → ∀ y ∈ s.sentPulses.drop seen,
          timeAt xs y ≤ timeAt xs pulse) :=
      hok.sends_later_iff (fun p q hle hq =>
        timeAt_le hsorted hle (Nat.lt_of_lt_of_le hq hlength)) hheld
    rw [hnew, horder, stale_iff ht hside hstage, not_and]
    refine imp_congr_right fun _ => ?_
    rw [App.sentPulses, ← List.map_drop, List.forall_mem_map,
      tsOf_eq htimes (hlt pulse (hok.item_le task _ hheld))]
    simp only [not_exists, not_and]
    refine forall₂_congr fun m hm => ?_
    have hmem : m.content.pulse ∈ s.relay.sent :=
      List.mem_map_of_mem (List.mem_of_mem_drop hm)
    rw [tsOf_eq htimes (hlt _ (hok.sent_le _ hmem))]
    simp
  · refine iff_of_true (fun x hx => ?_) fun hstale => hforwards ?_
    · rw [App.sentPulses, (appStep_quiet h hforwards).sent_eq] at hx
      simp [App.sentPulses] at hx
    · obtain ⟨task, t, _, _, _, rfl, ht, hside, _⟩ := hstale
      exact ⟨task, t, rfl, ht, hside⟩

/-- In a run in which pulses come in the order of their times, they go out in
that order just if no control message passes on a pulse that is older than one
that has gone out since it joined. -/
theorem sentInOrder_iff {es : List AppEvent} {s : App}
    (h : AppRun db port .start es s) (hin : NonDecreasing s.times) :
    NonDecreasing s.sentTimes ↔
      ∀ t e t', AppStepOf db port es t e t' → ¬ t.Stale e := by
  obtain ⟨xs, hxs, hsorted⟩ := hin
  have htimes : s.times <+: xs.map some := hxs ▸ List.prefix_refl _
  have hsent : s.sentTimes = s.sentPulses.map s.tsOf := by
    rw [App.sentPulses, List.map_map]
    rfl
  have hall : ∀ p ∈ s.sentPulses, s.tsOf p = some (timeAt xs p) := by
    intro p hp
    obtain ⟨_, hok⟩ := relayOk_of_run h
    obtain ⟨l, hl, hle⟩ := hok.sent_le p hp
    exact tsOf_eq htimes (Nat.lt_of_le_of_lt hle (hok.last_lt l hl))
  rw [hsent, nonDecreasing_map_iff hall,
    pairwise_log_iff App.sentPulses _ (fun _ _ _ => sentPulses_step) h]
  refine (and_iff_right List.Pairwise.nil).trans ?_
  refine forall₄_congr fun t e t' hstep => ?_
  obtain ⟨before, after, rfl, hbefore, he⟩ := hstep
  have hrest := times_of_run (Run.drop hbefore h)
  exact inOrder_step_iff (relayOk_of_run hbefore).2 (hrest.trans htimes)
    hsorted he

def firstPulse : JsString := js "\x7b\"type\":\"PULSE\",\"ts\":1\x7d"

def secondPulse : JsString := js "\x7b\"type\":\"PULSE\",\"ts\":2\x7d"

/-- Two pulses, one after the other. -/
def twoPulses : List AppEvent :=
  [.connect, .sysMessage firstPulse fun _ => true, .resume 1,
    .sysMessage secondPulse fun _ => true, .resume 2]

theorem sentInOrder_twoPulses : ∃ s,
    AppRun (fun _ => none) 80 .start twoPulses s ∧ NonDecreasing s.times ∧
      ∀ t e t', AppStepOf (fun _ => none) 80 twoPulses t e t' →
        ¬ t.Stale e := by
  have hend : (twoPulses.foldlM (appStep (fun _ => none) 80) .start).map
      (fun s => (s.times, s.sentTimes)) =
        some ([some 1, some 2], [some 1, some 2]) := by
    decide +kernel
  obtain ⟨s, hs, htimes⟩ := Option.map_eq_some_iff.1 hend
  obtain ⟨hin, hout⟩ := Prod.mk.inj htimes
  have hrun := run_iff_foldlM_option.1 hs
  have hsorted : NonDecreasing [some 1, some 2] :=
    ⟨[1, 2], rfl, by decide⟩
  exact ⟨s, hrun, hin ▸ hsorted,
    (sentInOrder_iff hrun (hin ▸ hsorted)).1 (hout ▸ hsorted)⟩

/-- A control message joins with the first pulse, and ends when the second one
has gone out. -/
def overtaken : List AppEvent :=
  let net : Network := fun _ _ _ => .response (js "[\x7b\"pin\":2\x7d]")
  [.connect, .setDevice reportA, .sysMessage firstPulse fun _ => true,
    .queried 1 0 net true, .resume 1,
    .message .homePage (js ("\x7b\"type\":\"CTRL_DEV\"," ++
      "\"mac\":\"a\",\"states\":[]\x7d")),
    .answered 2 net fun _ => true, .sysMessage secondPulse fun _ => true,
    .queried 3 0 net true, .resume 3, .queried 2 0 net true, .resume 2]

/-- The first pulse goes out again, behind the second. -/
theorem sent_out_of_order : ∃ s,
    AppRun (fun _ => none) 80 .start overtaken s ∧ NonDecreasing s.times ∧
      ¬ NonDecreasing s.sentTimes := by
  have hend : (overtaken.foldlM (appStep (fun _ => none) 80) .start).map
      (fun s => (s.times, s.sentTimes)) =
        some ([some 1, some 2], [some 1, some 2, some 1]) := by
    decide +kernel
  obtain ⟨s, hs, htimes⟩ := Option.map_eq_some_iff.1 hend
  obtain ⟨hin, hout⟩ := Prod.mk.inj htimes
  refine ⟨s, run_iff_foldlM_option.1 hs, hin ▸ ⟨[1, 2], rfl, by decide⟩, ?_⟩
  rw [hout]
  rintro ⟨xs, heq, hsorted⟩
  have hxs : [1, 2, 1] = xs :=
    List.map_injective_iff.2 (Option.some_injective ℚ) heq
  rw [← hxs] at hsorted
  exact absurd hsorted (by decide)

end IotHome.Server
