import IotHome.Proofs.AppSteps
import IotHome.Proofs.DeviceRegistry
import IotHome.PublicServer.TwoServers

/-!
# Control messages and pulses between the servers

`control_of_run`: a device is asked to set something for the public server
just as a browser there wrote it, and for each message of a browser at most
once, whatever the connections do in the meantime. `pulses_of_run` is the way
back: what a browser at the public server gets is a pulse that the integration
server sent, read and written again, and each pulse goes to at most one
browser, once.

Both come from what the links keep. A server passes on a message when it has
taken it off its link, and a message is taken once; so the messages that are
passed on are, in their order, among those that were taken.
-/

namespace IotHome.PublicServer

open IotHome.Lib
open IotHome.Server

variable {db : DevicesDb} {port : Nat}

/-! ## What one step sends -/

/-- A message that the public server handles, it passes on to one end at
most. -/
theorem homeStep_relayed {s : TwoServers} {home : HomePage} {link : Link}
    {text : JsString} {e : HomeEvent} (he : link.homeEvent text = some e)
    (h : homeStep s.home e = some home) :
    s.relayed home = [] ∨
    (∃ socket conn, link = .fromBrowser socket ∧
      s.relayed home = [(.toSystem conn, text)]) ∨
    ∃ conn socket obj, link = .fromSystem conn ∧ parseMsg text = some obj ∧
      isPulse text = true ∧
      s.relayed home = [(.toBrowser socket, Json.stringify obj)] := by
  cases link with
  | fromBrowser socket =>
      obtain rfl := Option.some.inj he
      rw [homeStep] at h
      split at h
      · obtain rfl := Option.some.inj h
        rw [HomePage.feMessage]
        split
        · cases hconn : s.sysClient with
          | none => exact .inl (by simp [TwoServers.relayed, hconn])
          | some conn =>
              exact .inr (.inl ⟨socket, conn, rfl,
                by simp [TwoServers.relayed, hconn]⟩)
        · exact .inl (by simp [TwoServers.relayed])
      · cases h
  | fromSystem conn =>
      obtain rfl := Option.some.inj he
      rw [homeStep] at h
      split at h
      · obtain rfl := Option.some.inj h
        rw [HomePage.sysMessage]
        cases hobj : parseMsg text with
        | none => exact .inl (by simp [TwoServers.relayed])
        | some obj =>
            simp only
            split
            · next hpulse =>
                rw [Bool.and_eq_true, ← hobj] at hpulse
                rw [HomePage.handleSysPulse, FrontEnd.send]
                cases hto : s.home.frontEnd.feWs.filter
                    fun k => s.home.frontEnd.isOpen k with
                | none => exact .inl (by simp [TwoServers.relayed])
                | some socket =>
                    exact .inr (.inr ⟨conn, socket, obj, rfl, rfl, hpulse.1,
                      by simp [TwoServers.relayed]⟩)
            · exact .inl (by simp [TwoServers.relayed])
      · cases h
  | toBrowser socket => cases he
  | toSystem conn => cases he

theorem atPublic_cases {s s' : TwoServers} {link : Link}
    (h : netStep db port s (.atPublic link) = some s') :
    ∃ i m home, s.links.next link = some (i, m) ∧
      (s' = { s.took link i with home := home } ∨
      (∃ socket conn, link = .fromBrowser socket ∧
        s' = TwoServers.put { s.took link i with home := home }
          (.toSystem conn) m.text (.relays i)) ∨
      ∃ conn socket obj, link = .fromSystem conn ∧
        parseMsg m.text = some obj ∧ isPulse m.text = true ∧
        s' = TwoServers.put { s.took link i with home := home }
          (.toBrowser socket) (Json.stringify obj) (.relays i)) := by
  obtain ⟨⟨i, m⟩, hnext, h⟩ := Option.bind_eq_some_iff.1 h
  obtain ⟨e, he, h⟩ := Option.bind_eq_some_iff.1 h
  obtain ⟨home, hhome, h⟩ := Option.bind_eq_some_iff.1 h
  obtain rfl := Option.some.inj h
  refine ⟨i, m, home, hnext, ?_⟩
  have hrelayed := homeStep_relayed (s := s.took link i) he hhome
  rw [TwoServers.atHome]
  rcases hrelayed with heq | ⟨socket, conn, hlink, heq⟩ |
      ⟨conn, socket, obj, hlink, hobj, hpulse, heq⟩
  · rw [heq]
    exact .inl rfl
  · rw [heq]
    exact .inr (.inl ⟨socket, conn, hlink, rfl⟩)
  · rw [heq]
    exact .inr (.inr ⟨conn, socket, obj, hlink, hobj, hpulse, rfl⟩)

theorem atApp_cases (s : TwoServers) {app : App} {e : AppEvent}
    (h : appStep db port s.app e = some app) (origin : Option Nat) :
    s.atApp app e origin = s.withApp app origin ∨
    ∃ conn msg devices, app.sentPublic = s.app.sentPublic ++ [msg] ∧
      s.atApp app e origin = (s.withApp app origin).put (.fromSystem conn)
        (serverPulseText devices msg) (.pulse s.app.sentPublic.length) := by
  rw [TwoServers.atApp]
  rcases sentPublic_step h with heq | ⟨msg, heq⟩
  · rw [heq, List.drop_length]
    exact .inl rfl
  · rw [heq, List.drop_left]
    cases hws : s.ws with
    | none => exact .inl rfl
    | some conn =>
        exact .inr ⟨conn, msg, queriedDevices s.app e, rfl, rfl⟩

/-! ## What holds at any time -/

def Origin.message? : Origin → Option Nat
  | .relays message => some message
  | _ => none

def Origin.pulse? : Origin → Option Nat
  | .pulse index => some index
  | _ => none

/-- The messages that have been passed on, in the order of that. -/
def TwoServers.relays (s : TwoServers) : List Nat :=
  s.links.sent.filterMap fun x => x.2.origin.message?

def TwoServers.pulses (s : TwoServers) : List Nat :=
  s.links.sent.filterMap fun x => x.2.origin.pulse?

/-- Where a message on a link has come from. -/
def Justified (s : TwoServers) (m : Parcel) : Link → Prop
  | .fromBrowser _ => m.origin = .own
  | .toSystem _ => ∃ i socket, m.origin = .relays i ∧
      s.links.sent[i]? = some (.fromBrowser socket, ⟨m.text, .own⟩)
  | .fromSystem _ => (m.origin = .own ∧ isPulse m.text = false) ∨
      ∃ n msg devices, m.origin = .pulse n ∧
        s.app.sentPublic[n]? = some msg ∧ m.text = serverPulseText devices msg
  | .toBrowser _ => ∃ i conn n text obj, m.origin = .relays i ∧
      s.links.sent[i]? = some (.fromSystem conn, ⟨text, .pulse n⟩) ∧
      parseMsg text = some obj ∧ isPulse text = true ∧
      m.text = Json.stringify obj

/-- A handler was started for a message out of a link. -/
def StartedFor (s : TwoServers) (t : Task) (message : Nat) : Prop :=
  ∃ conn m, s.links.sent[message]? = some (.toSystem conn, m) ∧
    isCtrlDevMsg (parseMsg m.text) = true ∧
    ∀ device query, t.stage = .setting device query →
      Asks s.app m.text device query

structure TwoServers.Ok (db : DevicesDb) (s : TwoServers) : Prop where
  links : s.links.Ok
  registry : s.app.registry.Ok db
  justified : ∀ (i : Nat) link m, s.links.sent[i]? = some (link, m) →
    Justified s m link
  relays : s.relays.Sublist s.links.taken
  pulses : s.pulses.Pairwise (· < ·)
  pulses_lt : ∀ n ∈ s.pulses, n < s.app.sentPublic.length
  asked_length : s.asked.length = s.app.tasks.length
  asked : (s.asked.filterMap id).Sublist s.links.taken
  tasks : ∀ (task : Nat) t, s.app.tasks[task]? = some t →
    t.side = .publicServer → t.forPulse = false →
    ∃ i, s.asked[task]? = some (some i) ∧ StartedFor s t i

theorem TwoServers.ok_start (db : DevicesDb) : TwoServers.start.Ok db where
  links := Links.ok_empty
  registry := Registry.ok_empty db
  justified i link m h := by simp [start, Links.empty] at h
  relays := List.Sublist.refl _
  pulses := .nil
  pulses_lt n hn := absurd hn List.not_mem_nil
  asked_length := rfl
  asked := List.Sublist.refl _
  tasks task t h := by simp [start, App.start] at h

/-- Nothing that was sent is taken back. -/
structure Extends (s s' : TwoServers) : Prop where
  sent : ∀ (i : Nat) x, s.links.sent[i]? = some x →
    s'.links.sent[i]? = some x
  sentPublic : ∀ (n : Nat) msg, s.app.sentPublic[n]? = some msg →
    s'.app.sentPublic[n]? = some msg
  macs : MacsKept s.app.registry s'.app.registry

theorem Justified.mono {s s' : TwoServers} (h : Extends s s') {m : Parcel}
    {link : Link} (hm : Justified s m link) : Justified s' m link := by
  cases link with
  | fromBrowser socket => exact hm
  | toSystem conn =>
      obtain ⟨i, socket, horigin, hsent⟩ := hm
      exact ⟨i, socket, horigin, h.sent i _ hsent⟩
  | fromSystem conn =>
      rcases hm with hown | ⟨n, msg, devices, horigin, hmsg, htext⟩
      · exact .inl hown
      · exact .inr ⟨n, msg, devices, horigin, h.sentPublic n msg hmsg, htext⟩
  | toBrowser socket =>
      obtain ⟨i, conn, n, text, obj, horigin, hsent, hrest⟩ := hm
      exact ⟨i, conn, n, text, obj, horigin, h.sent i _ hsent, hrest⟩

theorem StartedFor.mono {s s' : TwoServers} (h : Extends s s') {t t' : Task}
    (ht : Follows t t') {i : Nat} (hi : StartedFor s t i) :
    StartedFor s' t' i := by
  obtain ⟨conn, m, hsent, hctrl, hasks⟩ := hi
  refine ⟨conn, m, h.sent i _ hsent, hctrl, fun device query hstage => ?_⟩
  exact (hasks device query (ht.2.2 device query hstage)).mono h.macs

theorem TwoServers.extends_put (s : TwoServers) (link : Link)
    (text : JsString) (origin : Origin) :
    Extends s (s.put link text origin) where
  sent _ _ hx := Links.getElem?_sent_send.2 (.inl hx)
  sentPublic _ _ h := h
  macs _ d hd := ⟨d, hd, rfl⟩

/-- The links may be changed in any way that sends nothing. -/
theorem TwoServers.Ok.of_links {s s' : TwoServers} (h : s.Ok db)
    (hlinks : s'.links.Ok) (hsent : s'.links.sent = s.links.sent)
    (happ : s'.app = s.app) (hasked : s'.asked = s.asked)
    (htaken : s.links.taken.Sublist s'.links.taken) : s'.Ok db := by
  have hext : Extends s s' :=
    ⟨fun i x hx => by rwa [hsent], fun n msg hmsg => by rwa [happ],
      by rw [happ]; exact fun _ d hd => ⟨d, hd, rfl⟩⟩
  refine ⟨hlinks, happ ▸ h.registry, fun i link m hm => ?_, ?_, ?_, ?_, ?_, ?_,
    fun task t ht hside hpulse => ?_⟩
  · rw [hsent] at hm
    exact (h.justified i link m hm).mono hext
  · rw [TwoServers.relays, hsent]
    exact h.relays.trans htaken
  · rw [TwoServers.pulses, hsent]
    exact h.pulses
  · rw [TwoServers.pulses, hsent, happ]
    exact h.pulses_lt
  · rw [hasked, happ]
    exact h.asked_length
  · rw [hasked]
    exact h.asked.trans htaken
  · rw [happ] at ht
    obtain ⟨i, hi, hstarted⟩ := h.tasks task t ht hside hpulse
    exact ⟨i, hasked ▸ hi, hstarted.mono hext (.refl t)⟩

/-- A message may be sent for which all of this stays true. -/
theorem TwoServers.Ok.put {s : TwoServers} (h : s.Ok db) {link : Link}
    {text : JsString} {origin : Origin}
    (hjustified : Justified s ⟨text, origin⟩ link)
    (hrelays : (s.relays ++ origin.message?.toList).Sublist s.links.taken)
    (hpulses : (s.pulses ++ origin.pulse?.toList).Pairwise (· < ·))
    (hlt : ∀ n ∈ origin.pulse?, n < s.app.sentPublic.length) :
    (s.put link text origin).Ok db := by
  have hext := s.extends_put link text origin
  have hcat : ∀ f : Origin → Option Nat,
      (s.put link text origin).links.sent.filterMap
          (fun x : Link × Parcel => f x.2.origin) =
        s.links.sent.filterMap (fun x => f x.2.origin) ++ (f origin).toList := by
    intro f
    rw [TwoServers.put, Links.send, List.filterMap_append]
    cases hf : f origin with
    | none => simp [hf]
    | some i => simp [hf]
  refine ⟨h.links.send link _, h.registry, fun i link' m hm => ?_, ?_, ?_,
    fun n hn => ?_, h.asked_length, h.asked, fun task t ht hside hpulse => ?_⟩
  · rcases Links.getElem?_sent_send.1 hm with hold | ⟨_, hnew⟩
    · exact (h.justified i link' m hold).mono hext
    · obtain ⟨rfl, rfl⟩ := Prod.mk.inj hnew
      exact hjustified.mono hext
  · rw [TwoServers.relays, hcat]
    exact hrelays
  · rw [TwoServers.pulses, hcat]
    exact hpulses
  · rw [TwoServers.pulses, hcat] at hn
    rcases List.mem_append.1 hn with hold | hnew
    · exact h.pulses_lt n hold
    · exact hlt n (Option.mem_toList.1 hnew)
  · obtain ⟨i, hi, hstarted⟩ := h.tasks task t ht hside hpulse
    exact ⟨i, hi, hstarted.mono hext (.refl t)⟩

theorem TwoServers.Ok.putOwn {s : TwoServers} (h : s.Ok db) {link : Link}
    {text : JsString} (hjustified : Justified s ⟨text, .own⟩ link) :
    (s.put link text .own).Ok db := by
  refine h.put hjustified ?_ ?_ fun n hn => by cases hn
  · show (s.relays ++ []).Sublist s.links.taken
    rw [List.append_nil]
    exact h.relays
  · show (s.pulses ++ []).Pairwise (· < ·)
    rw [List.append_nil]
    exact h.pulses

theorem TwoServers.Ok.took {s : TwoServers} (h : s.Ok db) {link : Link}
    {i : Nat} {m : Parcel} (hnext : s.links.next link = some (i, m)) :
    (s.took link i).Ok db :=
  h.of_links (h.links.take hnext) rfl rfl rfl (List.sublist_append_left _ _)

/-- A message that was taken may be passed on, once. -/
theorem TwoServers.Ok.relay {s s' : TwoServers} (h : s.Ok db) {src dst : Link}
    {i : Nat} {m : Parcel} (hnext : s.links.next src = some (i, m))
    (hs' : s' = { s.took src i with home := s'.home }) {text : JsString}
    (hjustified : Justified s ⟨text, .relays i⟩ dst) :
    (s'.put dst text (.relays i)).Ok db := by
  have hok : s'.Ok db := by
    rw [hs']
    exact (h.took hnext).of_links (h.took hnext).links rfl rfl rfl
      (List.Sublist.refl _)
  have hlinks : s'.links = s.links.take src i := by rw [hs']; rfl
  have hext : Extends s s' := by
    rw [hs']
    exact ⟨fun _ _ hx => hx, fun _ _ hx => hx, fun _ d hd => ⟨d, hd, rfl⟩⟩
  refine hok.put (hjustified.mono hext) ?_ ?_ fun n hn => by cases hn
  · show (s'.relays ++ [i]).Sublist s'.links.taken
    rw [TwoServers.relays, hlinks]
    exact h.relays.append (List.Sublist.refl [i])
  · show (s'.pulses ++ []).Pairwise (· < ·)
    rw [List.append_nil]
    exact hok.pulses

/-- The integration server goes on. A new handler for the public server is one
for a message, and no other is for that. -/
theorem TwoServers.Ok.withApp {s : TwoServers} (h : s.Ok db) {e : AppEvent}
    {app : App} (hstep : appStep db port s.app e = some app)
    {new : List Task} (hfollow : TasksFollow s.app app new)
    {origin : Option Nat}
    (hnew : ∀ t ∈ new, t.side = .publicServer → t.forPulse = false →
      ∃ i, origin = some i ∧ StartedFor (s.withApp app origin) t i)
    (hasked : (s.asked.filterMap id ++
      (List.replicate new.length origin).filterMap id).Sublist s.links.taken) :
    (s.withApp app origin).Ok db ∧ Extends s (s.withApp app origin) := by
  obtain ⟨old, htasks, hlength, hold⟩ := hfollow
  have hcount : app.tasks.length - s.app.tasks.length = new.length := by
    rw [htasks, List.length_append]
    omega
  have hall : (s.withApp app origin).asked =
      s.asked ++ List.replicate new.length origin := by
    rw [TwoServers.withApp, hcount]
  have hsent : ∀ (n : Nat) msg, s.app.sentPublic[n]? = some msg →
      app.sentPublic[n]? = some msg := by
    intro n msg hmsg
    rcases sentPublic_step hstep with heq | ⟨msg', heq⟩
    · rwa [heq]
    · rw [heq, List.getElem?_append_left (List.getElem?_eq_some_iff.1 hmsg).1,
        hmsg]
  have hext : Extends s (s.withApp app origin) :=
    ⟨fun _ _ hx => hx, hsent, macsKept_step hstep⟩
  have hregistry : app.registry.Ok db := by
    obtain ⟨ops, _, heq⟩ := appStep_logs hstep
    rw [heq]
    exact h.registry.foldl ops
  refine ⟨⟨h.links, hregistry,
    fun i link m hm => (h.justified i link m hm).mono hext, h.relays,
    h.pulses, fun n hn => ?_, ?_, ?_, fun task t ht hside hpulse => ?_⟩, hext⟩
  · have hlt := h.pulses_lt n hn
    have hmsg := hsent n _ (List.getElem?_eq_getElem hlt)
    exact (List.getElem?_eq_some_iff.1 hmsg).1
  · rw [hall, List.length_append, List.length_replicate, h.asked_length]
    show s.app.tasks.length + new.length = app.tasks.length
    rw [htasks, List.length_append, hlength]
  · rw [hall, List.filterMap_append]
    exact hasked
  · rw [hall]
    replace ht : (old ++ new)[task]? = some t := htasks ▸ ht
    rcases Nat.lt_or_ge task old.length with hlt | hge
    · rw [List.getElem?_append_left hlt] at ht
      obtain ⟨t₀, ht₀, hfollows⟩ := hold task t ht
      obtain ⟨i, hi, hstarted⟩ := h.tasks task t₀ ht₀
        (hfollows.1.symm.trans hside) (hfollows.2.1.symm.trans hpulse)
      refine ⟨i, ?_, hstarted.mono hext hfollows⟩
      rw [List.getElem?_append_left (List.getElem?_eq_some_iff.1 hi).1, hi]
    · rw [List.getElem?_append_right hge] at ht
      obtain ⟨i, horigin, hstarted⟩ :=
        hnew t (List.mem_of_getElem? ht) hside hpulse
      refine ⟨i, ?_, hstarted⟩
      have hlt := (List.getElem?_eq_some_iff.1 ht).1
      rw [List.getElem?_append_right (by rw [h.asked_length]; omega),
        List.getElem?_replicate, h.asked_length, ← hlength, if_pos hlt, horigin]

theorem TwoServers.Ok.atApp {s : TwoServers} (h : s.Ok db) {e : AppEvent}
    {app : App} (hstep : appStep db port s.app e = some app)
    {origin : Option Nat} (hok : (s.withApp app origin).Ok db) :
    (s.atApp app e origin).Ok db := by
  rcases atApp_cases s hstep origin with heq | ⟨conn, msg, devices, hsent, heq⟩
  · rw [heq]
    exact hok
  · rw [heq]
    have hlength : (s.withApp app origin).app.sentPublic.length =
        s.app.sentPublic.length + 1 := by
      show app.sentPublic.length = _
      rw [hsent, List.length_append, List.length_singleton]
    refine hok.put (.inr ⟨_, msg, devices, rfl, ?_, rfl⟩) ?_ ?_ fun n hn => ?_
    · show app.sentPublic[s.app.sentPublic.length]? = some msg
      rw [hsent, List.getElem?_concat_length]
    · show (s.relays ++ []).Sublist s.links.taken
      rw [List.append_nil]
      exact h.relays
    · show (s.pulses ++ [s.app.sentPublic.length]).Pairwise (· < ·)
      rw [List.pairwise_append]
      refine ⟨h.pulses, List.pairwise_singleton _ _, fun n hn m hm => ?_⟩
      rw [List.mem_singleton.1 hm]
      exact h.pulses_lt n hn
    · obtain rfl := Option.some.inj hn
      omega

/-- A message of a browser gets to the handlers. -/
theorem TwoServers.Ok.atSystem {s : TwoServers} (h : s.Ok db) {conn i : Nat}
    {m : Parcel} (hnext : s.links.next (.toSystem conn) = some (i, m))
    {app : App}
    (hstep : appStep db port s.app (.message .publicServer m.text) =
      some app) :
    ((s.took (.toSystem conn) i).atApp app (.message .publicServer m.text)
      (some i)).Ok db := by
  have htook := h.took hnext
  refine htook.atApp hstep ?_
  obtain ⟨new, hfollow, hnew⟩ := tasksFollow_step hstep
  refine (htook.withApp hstep hfollow (fun t ht _ hpulse => ⟨i, rfl, ?_⟩) ?_).1
  · rcases hnew with hall | ⟨side, data, device, query, he, hrequest, rfl⟩
    · rw [hall t ht] at hpulse
      cases hpulse
    · obtain ⟨rfl, rfl⟩ := AppEvent.message.inj he
      obtain rfl := List.mem_singleton.1 ht
      obtain ⟨hctrl, hasks⟩ := asks_of_controlRequest h.registry hrequest
      refine ⟨conn, m, h.links.sent_of_next hnext, hctrl,
        fun device' query' hstage => ?_⟩
      obtain ⟨rfl, rfl⟩ := Stage.setting.inj hstage
      exact hasks.mono (macsKept_step hstep)
  · show (s.asked.filterMap id ++ _).Sublist (s.links.taken ++ [i])
    have hone : new.length ≤ 1 := by
      rcases hnew with hall | ⟨_, _, _, _, _, _, rfl⟩
      · obtain ⟨old, htasks, hlength, _⟩ := hfollow
        have happ : app.tasks.length ≤ s.app.tasks.length + 1 := by
          obtain rfl := Option.some.inj hstep
          show (s.app.message _ _).tasks.length ≤ _
          rw [App.message]
          split
          · omega
          · rw [List.length_append]
            show _ + 1 ≤ _ + 1
            omega
        have hold : old.length = s.app.tasks.length := hlength
        rw [htasks, List.length_append] at happ
        omega
      · show 1 ≤ 1
        omega
    have hcase : new.length = 0 ∨ new.length = 1 := by omega
    rcases hcase with hzero | hsingle
    · rw [hzero, List.replicate_zero, List.filterMap_nil, List.append_nil]
      exact h.asked.trans (List.sublist_append_left _ _)
    · rw [hsingle]
      exact h.asked.append (List.Sublist.refl [i])

/-- The rest of what the integration server does starts no handler for a
message of the public server. -/
theorem TwoServers.Ok.other {s : TwoServers} (h : s.Ok db) {e : AppEvent}
    (he : ofPublicServer e = false) {app : App}
    (hstep : appStep db port s.app e = some app) :
    (s.atApp app e none).Ok db := by
  refine h.atApp hstep ?_
  obtain ⟨new, hfollow, hnew⟩ := tasksFollow_step hstep
  refine (h.withApp hstep hfollow (fun t ht hside hpulse => ?_) ?_).1
  · rcases hnew with hall | ⟨side, data, device, query, rfl, _, rfl⟩
    · rw [hall t ht] at hpulse
      cases hpulse
    · obtain rfl := List.mem_singleton.1 ht
      obtain rfl : side = .publicServer := hside
      cases he
  · have hnil : (List.replicate new.length (none : Option Nat)).filterMap id =
        [] := List.filterMap_eq_nil_iff.2 fun a ha => List.eq_of_mem_replicate ha
    rw [hnil, List.append_nil]
    exact h.asked

theorem TwoServers.Ok.atPublic {s s' : TwoServers} (h : s.Ok db) {link : Link}
    (hstep : netStep db port s (.atPublic link) = some s') : s'.Ok db := by
  obtain ⟨i, m, home, hnext, hcase⟩ := atPublic_cases hstep
  have hsent := h.links.sent_of_next hnext
  rcases hcase with rfl | ⟨socket, conn, rfl, rfl⟩ |
      ⟨conn, socket, obj, rfl, hobj, hpulse, rfl⟩
  · exact (h.took hnext).of_links (h.took hnext).links rfl rfl rfl
      (List.Sublist.refl _)
  · have hown : m.origin = .own := h.justified i _ m hsent
    refine h.relay hnext rfl ⟨i, socket, rfl, ?_⟩
    rw [hsent, ← hown]
  · rcases h.justified i _ m hsent with ⟨_, hnot⟩ | ⟨n, msg, devices, horigin, _⟩
    · rw [hpulse] at hnot
      cases hnot
    · refine h.relay hnext rfl
        ⟨i, conn, n, m.text, obj, rfl, ?_, hobj, hpulse, rfl⟩
      rw [hsent, ← horigin]

theorem TwoServers.Ok.step {s s' : TwoServers} {e : NetEvent} (h : s.Ok db)
    (hstep : netStep db port s e = some s') : s'.Ok db := by
  have hhome : ∀ (home : HomePage) (systems : Nat) (sysClient ws : Option Nat),
      TwoServers.Ok db { s with
        home := home, systems := systems, sysClient := sysClient, ws := ws } :=
    fun home systems sysClient ws =>
      h.of_links h.links rfl rfl rfl (List.Sublist.refl _)
  cases e with
  | systemConnects =>
      obtain rfl := Option.some.inj hstep
      exact hhome _ _ _ _
  | adopts conn =>
      rw [netStep] at hstep
      split at hstep
      · obtain rfl := Option.some.inj hstep
        exact hhome _ _ _ _
      · cases hstep
  | sendsTime text =>
      rw [netStep] at hstep
      split at hstep
      · cases hstep
      · next hnot =>
          split at hstep
          · obtain rfl := Option.some.inj hstep
            exact h
          · obtain rfl := Option.some.inj hstep
            exact h.putOwn (.inl ⟨rfl, Bool.not_eq_true _ ▸ hnot⟩)
  | browserConnects =>
      obtain rfl := Option.some.inj hstep
      exact hhome _ _ _ _
  | browserCloses socket =>
      obtain rfl := Option.some.inj hstep
      exact hhome _ _ _ _
  | browserSends socket text =>
      rw [netStep] at hstep
      split at hstep
      · obtain rfl := Option.some.inj hstep
        exact h.putOwn rfl
      · cases hstep
  | atPublic link => exact h.atPublic hstep
  | atSystem conn =>
      obtain ⟨⟨i, m⟩, hnext, hstep⟩ := Option.bind_eq_some_iff.1 hstep
      obtain ⟨app, happ, hstep⟩ := Option.bind_eq_some_iff.1 hstep
      obtain rfl := Option.some.inj hstep
      exact h.atSystem hnext happ
  | atBrowser socket =>
      obtain ⟨⟨i, m⟩, hnext, hstep⟩ := Option.bind_eq_some_iff.1 hstep
      obtain rfl := Option.some.inj hstep
      exact h.took hnext
  | app e =>
      rw [netStep] at hstep
      split at hstep
      · cases hstep
      · next hnot =>
          obtain ⟨app, happ, hstep⟩ := Option.bind_eq_some_iff.1 hstep
          obtain rfl := Option.some.inj hstep
          exact h.other (Bool.not_eq_true _ ▸ hnot) happ
  | cut link =>
      obtain rfl := Option.some.inj hstep
      exact h.of_links (h.links.cut link) rfl rfl rfl (List.Sublist.refl _)

theorem NetRun.ok {es : List NetEvent} {s : TwoServers}
    (h : NetRun db port es s) : s.Ok db :=
  h.invariant (P := TwoServers.Ok db) (fun hs hstep => hs.step hstep)
    (TwoServers.ok_start db)

/-! ## Control messages -/

/-- What a browser writes. -/
def NetEvent.browserText? : NetEvent → Option (Nat × JsString)
  | .browserSends socket text => some (socket, text)
  | _ => none

def Link.browserText? (text : JsString) : Link → Option (Nat × JsString)
  | .fromBrowser socket => some (socket, text)
  | _ => none

def TwoServers.browserTexts (s : TwoServers) : List (Nat × JsString) :=
  s.links.sent.filterMap fun x => x.1.browserText? x.2.text

theorem browserTexts_put (s : TwoServers) (link : Link) (text : JsString)
    (origin : Origin) :
    (s.put link text origin).browserTexts =
      s.browserTexts ++ (link.browserText? text).toList := by
  rw [TwoServers.browserTexts, TwoServers.put, Links.send,
    List.filterMap_append]
  cases h : link.browserText? text with
  | none => simp [h, TwoServers.browserTexts]
  | some x => simp [h, TwoServers.browserTexts]

theorem browserTexts_atApp (s : TwoServers) {app : App} {e : AppEvent}
    (h : appStep db port s.app e = some app) (origin : Option Nat) :
    (s.atApp app e origin).browserTexts = s.browserTexts := by
  rcases atApp_cases s h origin with heq | ⟨conn, msg, devices, _, heq⟩
  · rw [heq]
    rfl
  · rw [heq, browserTexts_put]
    exact List.append_nil _

theorem browserTexts_step {s s' : TwoServers} {e : NetEvent}
    (h : netStep db port s e = some s') :
    s'.browserTexts = s.browserTexts ++ e.browserText?.toList := by
  have hsame : s.browserTexts = s.browserTexts ++ [] :=
    (List.append_nil _).symm
  cases e with
  | systemConnects =>
      obtain rfl := Option.some.inj h
      exact hsame
  | adopts conn =>
      rw [netStep] at h
      split at h
      · obtain rfl := Option.some.inj h
        exact hsame
      · cases h
  | sendsTime text =>
      rw [netStep] at h
      split at h
      · cases h
      · split at h
        · obtain rfl := Option.some.inj h
          exact hsame
        · obtain rfl := Option.some.inj h
          exact browserTexts_put s _ text .own
  | browserConnects =>
      obtain rfl := Option.some.inj h
      exact hsame
  | browserCloses socket =>
      obtain rfl := Option.some.inj h
      exact hsame
  | browserSends socket text =>
      rw [netStep] at h
      split at h
      · obtain rfl := Option.some.inj h
        exact browserTexts_put s _ text .own
      · cases h
  | atPublic link =>
      obtain ⟨i, m, home, _, hcase⟩ := atPublic_cases h
      rcases hcase with rfl | ⟨_, conn, _, rfl⟩ | ⟨_, socket, obj, _, _, _, rfl⟩
      · exact hsame
      · exact browserTexts_put _ _ _ _
      · exact browserTexts_put _ _ _ _
  | atSystem conn =>
      obtain ⟨m, _, h⟩ := Option.bind_eq_some_iff.1 h
      obtain ⟨app, happ, h⟩ := Option.bind_eq_some_iff.1 h
      obtain rfl := Option.some.inj h
      exact (browserTexts_atApp (s.took _ _) happ _).trans hsame
  | atBrowser socket =>
      obtain ⟨m, _, h⟩ := Option.bind_eq_some_iff.1 h
      obtain rfl := Option.some.inj h
      exact hsame
  | app e =>
      rw [netStep] at h
      split at h
      · cases h
      · obtain ⟨app, happ, h⟩ := Option.bind_eq_some_iff.1 h
        obtain rfl := Option.some.inj h
        exact (browserTexts_atApp s happ none).trans hsame
  | cut link =>
      obtain rfl := Option.some.inj h
      exact hsame

theorem NetRun.browserTexts {es : List NetEvent} {s : TwoServers}
    (h : NetRun db port es s) :
    s.browserTexts = es.filterMap NetEvent.browserText? := by
  refine Run.history
    (P := fun done s => s.browserTexts = done.filterMap NetEvent.browserText?)
    (fun {done s e s'} hs hstep => ?_) rfl h
  rw [browserTexts_step hstep, hs, List.filterMap_append]
  cases hx : e.browserText? with
  | none => simp [hx]
  | some x => simp [hx]

/-- The message that a message passes on. -/
def TwoServers.relayedBy (s : TwoServers) (message : Nat) : Option Nat :=
  s.links.passedOn (fun m => m.origin.message?) message

/-- The integration server asks a device to set something for the public
server just as a browser wrote it, and once for each message. On one
connection it does so in the order in which a browser wrote. -/
structure ControlOnce (es : List NetEvent) (s : TwoServers) : Prop where
  written : s.browserTexts = es.filterMap NetEvent.browserText?
  asked : ∀ (task : Nat) t, s.app.tasks[task]? = some t →
    t.side = .publicServer → t.forPulse = false →
    ∃ conn j i socket data, s.asked[task]? = some (some j) ∧
      s.links.linkOf j = some (.toSystem conn) ∧ s.relayedBy j = some i ∧
      s.links.sent[i]? = some (.fromBrowser socket, ⟨data, .own⟩) ∧
      isCtrlDevMsg (parseMsg data) = true ∧
      ∀ device query, t.stage = .setting device query →
        Asks s.app data device query
  once : (s.asked.filterMap id).Pairwise fun j j' => ∀ i i',
    s.relayedBy j = some i → s.relayedBy j' = some i' → i ≠ i' ∧
      (s.links.linkOf j = s.links.linkOf j' →
        s.links.linkOf i = s.links.linkOf i' → i < i')

theorem control_of_run {es : List NetEvent} {s : TwoServers}
    (h : NetRun db port es s) : ControlOnce es s := by
  have hok := h.ok
  refine ⟨h.browserTexts, fun task t ht hside hpulse => ?_,
    hok.links.passedOn_pairwise (·.origin.message?) hok.relays hok.asked⟩
  obtain ⟨j, hj, conn, m, hsent, hctrl, hasks⟩ :=
    hok.tasks task t ht hside hpulse
  obtain ⟨i, socket, horigin, hbrowser⟩ := hok.justified j _ m hsent
  refine ⟨conn, j, i, socket, m.text, hj, Links.linkOf_of_getElem? hsent, ?_,
    hbrowser, hctrl, hasks⟩
  rw [TwoServers.relayedBy, Links.passedOn_eq _ hsent, horigin]
  rfl

/-- A browser sets a pin of a device and is shown the pulse that follows. -/
def setAndShown : List NetEvent :=
  [.app (.setDevice reportA), .systemConnects, .adopts 0, .browserConnects,
    .browserSends 0 (js ("\x7b\"type\":\"CTRL_DEV\",\"mac\":\"a\"," ++
      "\"states\":[\x7b\"pin\":2,\"val\":1\x7d]\x7d")),
    .atPublic (.fromBrowser 0), .atSystem 0,
    .app (.sysMessage (js "\x7b\"type\":\"PULSE\",\"netIfs\":[]\x7d")
      fun _ => true),
    .app (.queried 1 0 (fun _ _ _ => .response (js "[]")) true),
    .app (.resume 1),
    .atPublic (.fromSystem 0), .atBrowser 0]

theorem netRun_setAndShown : ∃ s, NetRun (fun _ => none) 80 setAndShown s ∧
    s.asked = [some 1, none] ∧ s.relayedBy 1 = some 0 ∧
    s.links.taken = [0, 1, 2, 3] := by
  have hran : (setAndShown.foldlM (netStep (fun _ => none) 80) .start).map
      (fun s => (s.asked, s.relayedBy 1, s.links.taken)) =
      some ([some 1, none], some 0, [0, 1, 2, 3]) := by decide +kernel
  obtain ⟨s, hs, heq⟩ := Option.map_eq_some_iff.1 hran
  obtain ⟨hasked, hrest⟩ := Prod.mk.inj heq
  obtain ⟨hrelayed, htaken⟩ := Prod.mk.inj hrest
  exact ⟨s, run_iff_foldlM_option.1 hs, hasked, hrelayed, htaken⟩

theorem control_of_run_shown : ∃ s,
    NetRun (fun _ => none) 80 setAndShown s ∧ ControlOnce setAndShown s ∧
      s.asked = [some 1, none] ∧ s.relayedBy 1 = some 0 := by
  obtain ⟨s, hs, hasked, hrelayed, _⟩ := netRun_setAndShown
  exact ⟨s, hs, control_of_run hs, hasked, hrelayed⟩

/-! ## Pulses -/

/-- The pulse that a message to a browser has come from. -/
def TwoServers.pulseOf (s : TwoServers) (message : Nat) : Option Nat := do
  let i ← s.relayedBy message
  let x ← s.links.sent[i]?
  x.2.origin.pulse?

/-- The connection it has come over. -/
def TwoServers.cameOver (s : TwoServers) (message : Nat) : Option Link := do
  let i ← s.relayedBy message
  s.links.linkOf i

/-- What a browser at the public server gets is the text of a pulse as the
integration server has sent it, read and written again. Each pulse gets to one
browser at most, once; and a browser gets those of one connection in the order
in which they were sent. -/
structure PulsesOnce (s : TwoServers) : Prop where
  shown : ∀ (j : Nat) socket m, s.links.sent[j]? = some (.toBrowser socket, m) →
    ∃ i conn n text obj, s.relayedBy j = some i ∧
      s.links.sent[i]? = some (.fromSystem conn, ⟨text, .pulse n⟩) ∧
      (∃ msg devices, s.app.sentPublic[n]? = some msg ∧
        text = serverPulseText devices msg) ∧
      parseMsg text = some obj ∧ m.text = Json.stringify obj
  once : s.links.taken.Pairwise fun j j' => ∀ n n',
    s.pulseOf j = some n → s.pulseOf j' = some n' → n ≠ n' ∧
      (s.links.linkOf j = s.links.linkOf j' → s.cameOver j = s.cameOver j' →
        n < n')

theorem pulses_of_run {es : List NetEvent} {s : TwoServers}
    (h : NetRun db port es s) : PulsesOnce s := by
  have hok := h.ok
  refine ⟨fun j socket m hsent => ?_, ?_⟩
  · obtain ⟨i, conn, n, text, obj, horigin, hi, hobj, hpulse, htext⟩ :=
      hok.justified j _ m hsent
    rcases hok.justified i _ _ hi with ⟨hown, _⟩ | ⟨n', msg, devices, hn, hmsg, heq⟩
    · cases hown
    · obtain rfl := Origin.pulse.inj hn
      refine ⟨i, conn, n, text, obj, ?_, hi, ⟨msg, devices, hmsg, heq⟩, hobj,
        htext⟩
      rw [TwoServers.relayedBy, Links.passedOn_eq _ hsent, horigin]
      rfl
  · have hpairs := hok.links.passedOn_pairwise (·.origin.message?) hok.relays
      (List.Sublist.refl s.links.taken)
    refine hpairs.imp fun {j j'} hjj n n' hn hn' => ?_
    obtain ⟨i, hi, hx⟩ := Option.bind_eq_some_iff.1 hn
    obtain ⟨i', hi', hx'⟩ := Option.bind_eq_some_iff.1 hn'
    obtain ⟨x, hx, hxn⟩ := Option.bind_eq_some_iff.1 hx
    obtain ⟨x', hx', hxn'⟩ := Option.bind_eq_some_iff.1 hx'
    obtain ⟨hne, horder⟩ := hjj i i' hi hi'
    have hlt : ∀ {a b c d : Nat} {y z}, a < b → s.links.sent[a]? = some y →
        s.links.sent[b]? = some z → y.2.origin.pulse? = some c →
        z.2.origin.pulse? = some d → c < d := fun hab hy hz hc hd =>
      Links.rel_of_filterMap hok.pulses hab hy hz hc hd
    refine ⟨?_, fun hlink hcame => ?_⟩
    · rcases Nat.lt_or_gt_of_ne hne with h | h
      · exact Nat.ne_of_lt (hlt h hx hx' hxn hxn')
      · exact (Nat.ne_of_lt (hlt h hx' hx hxn' hxn)).symm
    · rw [TwoServers.cameOver, TwoServers.cameOver, hi, hi'] at hcame
      exact hlt (horder hlink hcame) hx hx' hxn hxn'

theorem pulses_of_run_shown : ∃ s,
    NetRun (fun _ => none) 80 setAndShown s ∧ PulsesOnce s ∧
      s.links.taken = [0, 1, 2, 3] := by
  obtain ⟨s, hs, _, _, htaken⟩ := netRun_setAndShown
  exact ⟨s, hs, pulses_of_run hs, htaken⟩

end IotHome.PublicServer
