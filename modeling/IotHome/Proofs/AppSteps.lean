import IotHome.Server.App

/-!
# What a step of the integration server does

The spec of a step for those who see the server from outside: a handler is
started for a pulse, or for a message that asks a device to set something, and
then waits for no other device (`tasksFollow_step`); at most one pulse goes to
the public server (`sentPublic_step`); a device stays where it is, with its
address (`macsKept_step`).
-/

namespace IotHome.Server

open IotHome.Lib

variable {db : DevicesDb} {port : Nat}

/-! ## The handlers -/

/-- A handler later on: it waits for no other device than it did. -/
def Follows (t t' : Task) : Prop :=
  t'.side = t.side ∧ t'.forPulse = t.forPulse ∧
    ∀ device query, t'.stage = .setting device query →
      t.stage = .setting device query

theorem Follows.refl (t : Task) : Follows t t := ⟨rfl, rfl, fun _ _ h => h⟩

/-- The handlers are those there were, and new ones. -/
def TasksFollow (s s' : App) (new : List Task) : Prop :=
  ∃ old, s'.tasks = old ++ new ∧ old.length = s.tasks.length ∧
    ∀ (task : Nat) (t' : Task), old[task]? = some t' →
      ∃ t, s.tasks[task]? = some t ∧ Follows t t'

theorem TasksFollow.of_append {s s' : App} {new : List Task}
    (h : s'.tasks = s.tasks ++ new) : TasksFollow s s' new :=
  ⟨s.tasks, h, rfl, fun _ t ht => ⟨t, ht, .refl t⟩⟩

theorem TasksFollow.of_eq {s s' : App} (h : s'.tasks = s.tasks) :
    TasksFollow s s' [] := .of_append (by rw [h, List.append_nil])

theorem TasksFollow.of_set {s s' : App} {task : Nat} {t : Task} {stage : Stage}
    (ht : s.tasks[task]? = some t)
    (hset : s'.tasks = s.tasks.set task { t with stage := stage })
    (hstage : ∀ device query, stage ≠ .setting device query) :
    TasksFollow s s' [] := by
  refine ⟨s'.tasks, by rw [List.append_nil], ?_, fun i t' ht' => ?_⟩
  · rw [hset, List.length_set]
  · rw [hset, List.getElem?_set] at ht'
    split at ht'
    · next heq =>
        subst heq
        split at ht'
        · obtain rfl := Option.some.inj ht'
          exact ⟨t, ht, rfl, rfl, fun device query h =>
            absurd h (hstage device query)⟩
        · cases ht'
    · exact ⟨t', ht', .refl t'⟩

theorem tasks_handleSysPulse (s : App) (pulse : Nat)
    (online : JsString → Bool) (side : Side) :
    ∃ new, (s.handleSysPulse db pulse online side).tasks = s.tasks ++ new ∧
      ∀ t ∈ new, t.forPulse = true := by
  rw [App.handleSysPulse]
  split
  · exact ⟨[], (List.append_nil _).symm, fun _ h => absurd h List.not_mem_nil⟩
  · exact ⟨[_], rfl, fun t ht => by rw [List.mem_singleton.1 ht]⟩

theorem tasks_sysMessage (s : App) (data : JsString)
    (online : JsString → Bool) :
    ∃ new, (s.sysMessage db data online).tasks = s.tasks ++ new ∧
      ∀ t ∈ new, t.forPulse = true := by
  rcases s.sysMessage_cases data online with heq | ⟨m, heq⟩
  · rw [heq]
    exact ⟨[], (List.append_nil _).symm, fun _ h => absurd h List.not_mem_nil⟩
  · rw [heq]
    refine List.foldlRecOn (motive := fun s' : App => ∃ new,
      s'.tasks = s.tasks ++ new ∧ ∀ t ∈ new, t.forPulse = true) _ _
      ⟨[], (List.append_nil _).symm, fun _ h => absurd h List.not_mem_nil⟩
      fun s' hs' side _ => ?_
    obtain ⟨new, hnew, hpulse⟩ := hs'
    obtain ⟨more, hmore, hpulse'⟩ :=
      @tasks_handleSysPulse db s' s.pulses.length online side
    refine ⟨new ++ more, by rw [hmore, hnew, List.append_assoc], fun t ht => ?_⟩
    rcases List.mem_append.1 ht with hold | hadded
    · exact hpulse t hold
    · exact hpulse' t hadded

/-- A new handler is for a pulse, or for a message that asks a device to set
something. -/
theorem tasksFollow_step {s s' : App} {e : AppEvent}
    (h : appStep db port s e = some s') :
    ∃ new, TasksFollow s s' new ∧ ((∀ t ∈ new, t.forPulse = true) ∨
      ∃ side data device query, e = .message side data ∧
        s.controlRequest data = some (device, query) ∧
        new = [⟨side, false, .setting device query⟩]) := by
  have hnone : ∀ t ∈ ([] : List Task), t.forPulse = true :=
    fun t ht => absurd ht List.not_mem_nil
  cases e with
  | connect =>
      obtain rfl := Option.some.inj h
      refine ⟨[], .of_eq ?_, .inl hnone⟩
      rw [App.subscribe]
      split
      · rfl
      · rfl
  | close socket =>
      obtain rfl := Option.some.inj h
      exact ⟨[], .of_eq rfl, .inl hnone⟩
  | setDevice n =>
      obtain rfl := Option.some.inj h
      exact ⟨[], .of_eq rfl, .inl hnone⟩
  | sysMessage data online =>
      obtain rfl := Option.some.inj h
      obtain ⟨new, hnew, hpulse⟩ := @tasks_sysMessage db s data online
      exact ⟨new, .of_append hnew, .inl hpulse⟩
  | message side data =>
      obtain rfl := Option.some.inj h
      rw [App.message]
      split
      · exact ⟨[], .of_eq rfl, .inl hnone⟩
      · next device query hrequest =>
          exact ⟨[_], .of_append rfl,
            .inr ⟨side, data, device, query, rfl, hrequest, rfl⟩⟩
  | answered task net online =>
      obtain ⟨t, device, query, d, ht, _, _, hcase⟩ := appStep_answered h
      refine ⟨[], ?_, .inl hnone⟩
      rcases hcase with rfl | ⟨_, states, _, rfl⟩
      · exact .of_set ht rfl fun _ _ hsetting => by cases hsetting
      · have htasks := @App.tasks_record db s device states
        rw [App.answered]
        split
        · exact .of_set ht (by rw [App.setStage, htasks])
            fun _ _ hsetting => by cases hsetting
        · exact .of_set ht (by rw [App.setStage, App.act, htasks])
            fun _ _ hsetting => by cases hsetting
  | queried task device net isOnline =>
      obtain ⟨t, pulse, devices, waiting, seen, ht, _, _, rfl⟩ :=
        appStep_queried h
      refine ⟨[], ?_, .inl hnone⟩
      exact .of_set ht (by rw [App.setStage, App.tasks_record])
        fun _ _ hsetting => by cases hsetting
  | resume task =>
      obtain ⟨t, pulse, devices, seen, ht, _, rfl⟩ := appStep_resume h
      refine ⟨[], ?_, .inl hnone⟩
      exact .of_set ht (by rw [App.setStage, App.tasks_finish])
        fun _ _ hsetting => by cases hsetting

/-! ## The pulses for the public server -/

theorem sentPublic_record (s : App) (device : Nat)
    (states : Option PinStates) :
    (s.record db device states).sentPublic = s.sentPublic := by
  obtain ⟨registry, log, heq⟩ := @App.record_eq db s device states
  rw [heq]

theorem sentPublic_sysMessage (s : App) (data : JsString)
    (online : JsString → Bool) :
    (s.sysMessage db data online).sentPublic = s.sentPublic := by
  rcases s.sysMessage_cases data online with heq | ⟨m, heq⟩
  · rw [heq]
  · rw [heq]
    refine List.foldlRecOn
      (motive := fun s' : App => s'.sentPublic = s.sentPublic) _ _ rfl
      fun s' hs' side _ => ?_
    rw [App.handleSysPulse]
    split
    · exact hs'
    · exact hs'

theorem sentPublic_finish (s : App) (t : Task) (pulse : Nat)
    (devices : List Nat) :
    (s.finish port t pulse devices).sentPublic = s.sentPublic ∨
      ∃ msg, (s.finish port t pulse devices).sentPublic =
        s.sentPublic ++ [msg] := by
  rw [App.finish]
  split
  · refine .inl ?_
    rw [App.finishHomePage]
    split
    · rfl
    · rfl
  · simp only [App.finishPublicServer]
    split
    · next msg _ =>
        refine .inr ⟨msg, ?_⟩
        split
        · rfl
        · rfl
    · exact .inl rfl

/-- A step sends at most one pulse to the public server. -/
theorem sentPublic_step {s s' : App} {e : AppEvent}
    (h : appStep db port s e = some s') :
    s'.sentPublic = s.sentPublic ∨
      ∃ msg, s'.sentPublic = s.sentPublic ++ [msg] := by
  cases e with
  | connect =>
      obtain rfl := Option.some.inj h
      rw [App.subscribe]
      split
      · exact .inl rfl
      · exact .inl rfl
  | close socket =>
      obtain rfl := Option.some.inj h
      exact .inl rfl
  | setDevice n =>
      obtain rfl := Option.some.inj h
      exact .inl rfl
  | sysMessage data online =>
      obtain rfl := Option.some.inj h
      exact .inl (sentPublic_sysMessage s data online)
  | message side data =>
      obtain rfl := Option.some.inj h
      rw [App.message]
      split
      · exact .inl rfl
      · exact .inl rfl
  | answered task net online =>
      obtain ⟨t, device, query, d, _, _, _, hcase⟩ := appStep_answered h
      refine .inl ?_
      rcases hcase with rfl | ⟨_, states, _, rfl⟩
      · rfl
      · rw [App.answered]
        split
        · exact sentPublic_record s device states
        · exact sentPublic_record s device states
  | queried task device net isOnline =>
      obtain ⟨t, pulse, devices, waiting, seen, _, _, _, rfl⟩ :=
        appStep_queried h
      exact .inl (sentPublic_record s device _)
  | resume task =>
      obtain ⟨t, pulse, devices, seen, _, _, rfl⟩ := appStep_resume h
      exact sentPublic_finish s t pulse devices

/-! ## The device a message is for -/

/-- Devices stay where they are, with their addresses. -/
def MacsKept (r r' : Registry) : Prop :=
  ∀ (p : Nat) (d : StoredDevice), r.heap[p]? = some d →
    ∃ d', r'.heap[p]? = some d' ∧ d'.mac = d.mac

theorem macsKept_apply (r : Registry) (op : RegistryOp) :
    MacsKept r (r.apply db op) := by
  intro p d hd
  cases op with
  | setDevice n =>
      refine ⟨d, ?_, rfl⟩
      rw [Registry.apply, Registry.setDevice,
        List.getElem?_append_left (List.getElem?_eq_some_iff.1 hd).1, hd]
  | checkIsOnline online =>
      refine ⟨_, by rw [Registry.apply, Registry.checkIsOnline,
        List.getElem?_mapIdx, hd]; rfl, ?_⟩
      split
      · rfl
      · rfl
  | record device states =>
      refine ⟨_, by rw [Registry.apply, Registry.record, Registry.modify,
        List.getElem?_modify, hd]; rfl, ?_⟩
      split
      · rfl
      · rfl

theorem macsKept_foldl (r : Registry) (ops : List RegistryOp) :
    MacsKept r (ops.foldl (Registry.apply db) r) := by
  induction ops generalizing r with
  | nil => exact fun p d hd => ⟨d, hd, rfl⟩
  | cons op ops ih =>
      intro p d hd
      obtain ⟨d₁, hd₁, hmac₁⟩ := macsKept_apply r op p d hd
      obtain ⟨d₂, hd₂, hmac₂⟩ := ih (r.apply db op) p d₁ hd₁
      exact ⟨d₂, hd₂, hmac₂.trans hmac₁⟩

theorem macsKept_step {s s' : App} {e : AppEvent}
    (h : appStep db port s e = some s') :
    MacsKept s.registry s'.registry := by
  obtain ⟨ops, _, hregistry⟩ := appStep_logs h
  rw [hregistry]
  exact macsKept_foldl s.registry ops

/-- A message names a device by its address, or all of them. -/
def Names (obj : JsValue) (mac : JsString) : Prop :=
  isText (getProp? obj "mac") "*" = true ∨
    getProp? obj "mac" = some (.str mac)

theorem names_of_getDeviceList {r : Registry} (hok : r.Ok db) {obj : JsValue}
    {device : Nat} (h : device ∈ r.getDeviceList (getProp? obj "mac")) :
    ∃ d, r.heap[device]? = some d ∧ Names obj d.mac := by
  unfold Registry.getDeviceList at h
  split at h
  · next hall =>
      obtain ⟨e, he, rfl⟩ := List.mem_map.1 h
      obtain ⟨d, hd, _⟩ := hok.stored e.1 e.2 he
      exact ⟨d, hd, .inl hall⟩
  · split at h
    · next mac hmac =>
        obtain ⟨d, hd, rfl⟩ := hok.stored mac device
          (mem_of_lastFor (Option.mem_toList.1 h))
        exact ⟨d, hd, .inr hmac⟩
    · cases h

/-- What a message asks for, and of which device. -/
def Asks (app : App) (data : JsString) (device : Nat) (query : List Char) :
    Prop :=
  setStateQuery (getProp? (parseMsg data) "states") = .ok query ∧
    ∃ d, app.registry.heap[device]? = some d ∧ Names (parseMsg data) d.mac

theorem asks_of_controlRequest {s : App} (hok : s.registry.Ok db)
    {data : JsString} {device : Nat} {query : List Char}
    (h : s.controlRequest data = some (device, query)) :
    isCtrlDevMsg (parseMsg data) = true ∧ Asks s data device query := by
  rw [App.controlRequest] at h
  split at h
  · next hctrl =>
      refine ⟨hctrl, ?_⟩
      split at h
      · cases h
      · next device' rest hlist =>
          split at h
          · next query' hquery =>
              obtain ⟨rfl, rfl⟩ := Prod.mk.inj (Option.some.inj h)
              exact ⟨hquery, names_of_getDeviceList hok
                (hlist ▸ List.mem_cons_self)⟩
          · cases h
  · cases h

theorem Asks.mono {s s' : App} (hkept : MacsKept s.registry s'.registry)
    {data : JsString} {device : Nat} {query : List Char}
    (h : Asks s data device query) : Asks s' data device query := by
  obtain ⟨hquery, d, hd, hnames⟩ := h
  obtain ⟨d', hd', hmac⟩ := hkept device d hd
  exact ⟨hquery, d', hd', hmac ▸ hnames⟩

end IotHome.Server
