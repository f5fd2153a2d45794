import IotHome.HomepageFe.Servers
import Mathlib.Data.List.Perm.Basic

/-!
# The component has what the service has

Whatever happens after the first rendering, `serversBuf` is `_servers`, entry
for entry. To these maps the events are writes and sweeps (`opsOf`), and what
is there is what they leave: a server stays as long as no sweep finds its last
pulse too old. What a sweep takes out is reported as it is taken out, and never
again, since each pulse makes a new object.

The invariant is `Followed`. A sweep takes its servers out by name, one at a
time, once in the service and once in the component; that both come to leaving
those that are not too old is `OrderedMap.foldl_delete_filter`.
-/

namespace IotHome.HomepageFe

open IotHome.Lib
open IotHome.Server
open IotHome.Virtual

/-! ## The events as writes and sweeps -/

def PageEvent.messages : PageEvent → Nat
  | .message _ _ => 1
  | _ => 0

/-- What an event is to the servers, so many messages having come before. -/
def PageEvent.op (messages : Nat) :
    PageEvent → Option (ExpiryOp MapKey TServer)
  | .message data now =>
      (serverOf messages data now).map fun s => .set s.serverName s
  | .sweep m now => some (.sweep fun _ s => !isOffline m now s)
  | .render => none

def opsFrom : Nat → List PageEvent → List (ExpiryOp MapKey TServer)
  | _, [] => []
  | n, e :: events => (e.op n).toList ++ opsFrom (n + e.messages) events

def opsOf (events : List PageEvent) : List (ExpiryOp MapKey TServer) :=
  opsFrom 0 events

def messagesIn : List PageEvent → Nat
  | [] => 0
  | e :: events => e.messages + messagesIn events

theorem opsFrom_concat (events : List PageEvent) (e : PageEvent) (n : Nat) :
    opsFrom n (events ++ [e]) =
      opsFrom n events ++ (e.op (n + messagesIn events)).toList := by
  induction events generalizing n with
  | nil => simp [opsFrom, messagesIn]
  | cons e' events ih =>
      rw [List.cons_append, opsFrom, ih, opsFrom, List.append_assoc,
        messagesIn, Nat.add_assoc]

theorem opsOf_concat (events : List PageEvent) (e : PageEvent) :
    opsOf (events ++ [e]) =
      opsOf events ++ (e.op (messagesIn events)).toList := by
  rw [opsOf, opsFrom_concat, Nat.zero_add]
  rfl

theorem afterOps_none {events : List PageEvent} {e : PageEvent}
    (h : e.op (messagesIn events) = none) :
    afterOps (opsOf (events ++ [e])) = afterOps (opsOf events) := by
  rw [opsOf_concat, h, Option.toList_none, List.append_nil]

theorem afterOps_some {events : List PageEvent} {e : PageEvent}
    {op : ExpiryOp MapKey TServer} (h : e.op (messagesIn events) = some op) :
    afterOps (opsOf (events ++ [e])) = op.apply (afterOps (opsOf events)) := by
  rw [opsOf_concat, h, Option.toList_some, afterOps_concat]

theorem messagesIn_concat (events : List PageEvent) (e : PageEvent) :
    messagesIn (events ++ [e]) = messagesIn events + e.messages := by
  induction events with
  | nil => simp [messagesIn]
  | cons e' events ih =>
      rw [List.cons_append, messagesIn, messagesIn, ih, Nat.add_assoc]

/-! ## What is subscribed -/

/-- The handlers of one rendering. -/
def subscriptions (rendering : Nat) :
    OrderedMap KWsServiceEvent (OrderedMap String TServerHandler) :=
  (OrderedMap.empty.set .serverIsActive
    (OrderedMap.empty.set "serverIsActiveHandler"
      (.serverIsActiveHandler rendering))).set .serverIsOffline
    (OrderedMap.empty.set "serverIsOfflineHandler"
      (.serverIsOfflineHandler rendering))

def Subscribed (p : Page) : Prop :=
  p.serviceEventHandlers = subscriptions p.renderings

/-- Each rendering takes the place of the one before. -/
theorem Subscribed.render {p : Page} (h : Subscribed p) :
    Subscribed p.render := by
  rw [Subscribed, Page.render, Page.subscribe, Page.subscribe]
  simp only
  rw [h]
  rfl

theorem subscribed_start : Subscribed Page.start.render := rfl

theorem handlersOf_active {p : Page} (h : Subscribed p) :
    p.handlersOf .serverIsActive = [.serverIsActiveHandler p.renderings] := by
  rw [Page.handlersOf, h]
  rfl

theorem handlersOf_offline {p : Page} (h : Subscribed p) :
    p.handlersOf .serverIsOffline = [.serverIsOfflineHandler p.renderings] := by
  rw [Page.handlersOf, h]
  rfl

/-! ## One event -/

/-- A server goes into both maps. -/
theorem setServer_eq {p : Page} (h : Subscribed p) (s : TServer) :
    p.setServer s =
      { p with
        servers := p.servers.set s.serverName s
        serversBuf := p.serversBuf.set s.serverName s
        shown := (p.serversBuf.set s.serverName s).values } := by
  have hactive : Page.handlersOf
      { p with servers := p.servers.set s.serverName s } .serverIsActive =
      [.serverIsActiveHandler p.renderings] := handlersOf_active h
  rw [Page.setServer]
  simp only [OrderedMap.get_set_self]
  rw [hactive]
  rfl

/-- Each server that is reported goes. -/
theorem foldl_offline {p : Page} (r : Nat) (offline : List TServer) :
    offline.foldl
        (fun p s => [TServerHandler.serverIsOfflineHandler r].foldl
          (Page.call s) p) p =
      { p with
        serversBuf := offline.foldl (fun m s => m.delete s.serverName)
          p.serversBuf
        shown := if offline = [] then p.shown else
          (offline.foldl (fun m s => m.delete s.serverName)
            p.serversBuf).values
        reports := p.reports ++ offline } := by
  induction offline generalizing p with
  | nil => simp
  | cons s offline ih =>
      rw [List.foldl_cons, ih]
      simp only [List.foldl_cons, List.foldl_nil, Page.call, Page.setServers,
        List.append_assoc, List.singleton_append, List.cons_ne_nil, if_false]
      congr 1
      split
      · next hnil => rw [hnil, List.foldl_nil]
      · rfl

/-- The servers that a sweep finds. -/
def offlineIn (p : Page) (m : JsNumber) (now : MapKey → Int) : List TServer :=
  p.servers.values.filter (isOffline m now)

/-- Each server is where its name says. -/
def Named (servers : OrderedMap MapKey TServer) : Prop :=
  ∀ e ∈ servers.entries, e.1 = e.2.serverName

/-- By their names the servers that are found are taken out of the map, and no
others. -/
theorem foldl_delete_offline {servers : OrderedMap MapKey TServer}
    (h : Named servers) (m : JsNumber) (now : MapKey → Int) :
    (servers.values.filter (isOffline m now)).foldl
        (fun servers s => servers.delete s.serverName) servers =
      servers.filter fun _ s => !isOffline m now s := by
  have hkeys : (servers.values.filter (isOffline m now)).map
      TServer.serverName =
        (servers.filter fun _ s => isOffline m now s).keys := by
    rw [OrderedMap.values, List.filter_map, List.map_map, OrderedMap.keys,
      OrderedMap.filter]
    refine List.map_congr_left fun e he => ?_
    exact (h e (List.mem_filter.1 he).1).symm
  rw [← List.foldl_map (f := TServer.serverName), hkeys,
    OrderedMap.foldl_delete_filter]

/-- What holds of the page after so many events. -/
structure Followed (events : List PageEvent) (p : Page) : Prop where
  subscribed : Subscribed p
  messages : p.messages = messagesIn events
  same : p.serversBuf = p.servers
  shown : p.shown = p.servers.values
  servers : p.servers = afterOps (opsOf events)
  named : Named p.servers

/-- What a sweep leaves, and what it reports. -/
structure Swept (m : JsNumber) (now : MapKey → Int) (p p' : Page) : Prop where
  remain : p'.servers.entries =
    p.servers.entries.filter fun e => !isOffline m now e.2
  reported : p'.reports = p.reports ++ offlineIn p m now

theorem sweep_eq {events : List PageEvent} {p : Page} (h : Followed events p)
    (m : JsNumber) (now : MapKey → Int) :
    p.handleOfflineServers m now =
      { p with
        servers := p.servers.filter fun _ s => !isOffline m now s
        serversBuf := p.servers.filter fun _ s => !isOffline m now s
        shown := (p.servers.filter fun _ s => !isOffline m now s).values
        reports := p.reports ++ offlineIn p m now } := by
  have hoffline : Page.handlersOf
      { p with servers := p.servers.filter fun _ s => !isOffline m now s }
      .serverIsOffline = [.serverIsOfflineHandler p.renderings] :=
    handlersOf_offline h.subscribed
  rw [Page.handleOfflineServers, Page.deleteOfflineServers]
  simp only
  rw [foldl_delete_offline h.named, hoffline, foldl_offline]
  simp only
  rw [h.same, foldl_delete_offline h.named]
  congr 1
  split
  · next hnil =>
      rw [h.shown, ← foldl_delete_offline h.named m now, hnil, List.foldl_nil]
  · rfl

theorem named_set {servers : OrderedMap MapKey TServer} (h : Named servers)
    (s : TServer) : Named (servers.set s.serverName s) := by
  intro e he
  obtain ⟨k, v⟩ := e
  rcases OrderedMap.mem_setEntry he servers.nodup with ⟨rfl, rfl⟩ | ⟨_, he⟩
  · rfl
  · exact h (k, v) he

theorem named_filter {servers : OrderedMap MapKey TServer} (h : Named servers)
    (keep : MapKey → TServer → Bool) : Named (servers.filter keep) :=
  fun e he => h e (List.mem_filter.1 he).1

theorem followed_start : Followed [] Page.start.render where
  subscribed := subscribed_start
  messages := rfl
  same := rfl
  shown := rfl
  servers := rfl
  named := fun _ he => (List.not_mem_nil he).elim

theorem step_message_none {p : Page} {data : JsString} {now : Int}
    (h : serverOf p.messages data now = none) :
    p.step (.message data now) = { p with messages := p.messages + 1 } := by
  rw [Page.step, h]

theorem step_message_some {p : Page} (hsubscribed : Subscribed p)
    {data : JsString} {now : Int} {s : TServer}
    (h : serverOf p.messages data now = some s) :
    p.step (.message data now) =
      { p with
        messages := p.messages + 1
        servers := p.servers.set s.serverName s
        serversBuf := p.serversBuf.set s.serverName s
        shown := (p.serversBuf.set s.serverName s).values } := by
  rw [Page.step, h]
  exact setServer_eq (p := { p with messages := p.messages + 1 }) hsubscribed s

/-- What one event keeps. -/
theorem Followed.step {events : List PageEvent} {p : Page}
    (h : Followed events p) (e : PageEvent) :
    Followed (events ++ [e]) (p.step e) := by
  have hmessages : p.messages + e.messages = messagesIn (events ++ [e]) := by
    rw [messagesIn_concat, h.messages]
  cases e with
  | message data now =>
      cases hserver : serverOf p.messages data now with
      | none =>
          have hop : (PageEvent.message data now).op (messagesIn events) =
              none := by
            rw [PageEvent.op, ← h.messages, hserver, Option.map_none]
          rw [step_message_none hserver]
          exact
            { subscribed := h.subscribed
              messages := hmessages
              same := h.same
              shown := h.shown
              servers := by rw [afterOps_none hop]; exact h.servers
              named := h.named }
      | some s =>
          have hop : (PageEvent.message data now).op (messagesIn events) =
              some (.set s.serverName s) := by
            rw [PageEvent.op, ← h.messages, hserver, Option.map_some]
          rw [step_message_some h.subscribed hserver]
          exact
            { subscribed := h.subscribed
              messages := hmessages
              same := by rw [h.same]
              shown := by rw [h.same]
              servers := by rw [afterOps_some hop, ← h.servers]; rfl
              named := named_set h.named s }
  | sweep m now =>
      rw [Page.step, sweep_eq h]
      exact
        { subscribed := h.subscribed
          messages := hmessages
          same := rfl
          shown := rfl
          servers := by rw [afterOps_some rfl, ← h.servers]; rfl
          named := named_filter h.named _ }
  | render =>
      exact
        { subscribed := h.subscribed.render
          messages := hmessages
          same := h.same
          shown := h.shown
          servers := by rw [afterOps_none rfl]; exact h.servers
          named := h.named }

theorem pageAfter_concat (events : List PageEvent) (e : PageEvent) :
    pageAfter (events ++ [e]) = (pageAfter events).step e := by
  rw [pageAfter, List.foldl_append]
  rfl

theorem followed (events : List PageEvent) :
    Followed events (pageAfter events) := by
  induction events using List.reverseRecOn with
  | nil => exact followed_start
  | append_singleton events e ih =>
      rw [pageAfter_concat]
      exact ih.step e

/-- Whatever came before, a pulse puts its server under its name. -/
theorem get_of_pulse (events : List PageEvent)
    {data name ipAddr : JsString} {port : Dec} {server : IntServer}
    (h : IsPulse data name ipAddr port server) (now : Int) :
    (pageAfter (events ++ [.message data now])).servers.get (.str name) =
      some ⟨messagesIn events, server, now⟩ := by
  have hpage := followed events
  have hserver : serverOf (pageAfter events).messages data now =
      some ⟨messagesIn events, server, now⟩ := by
    rw [serverOf, mainMsgHandler_pulse h, hpage.messages]
    rfl
  have hname : TServer.serverName ⟨messagesIn events, server, now⟩ =
      .str name := by
    rw [TServer.serverName, h.serverName, mapKey]
  rw [pageAfter_concat, step_message_some hpage.subscribed hserver, hname]
  exact OrderedMap.get_set_self _ _ _

/-- A message of another type leaves the servers as they are. -/
theorem servers_of_other (events : List PageEvent) {data : JsString}
    (h : isText (getProp? (parseMsg data) "type") "PULSE" = false)
    (now : Int) :
    (pageAfter (events ++ [.message data now])).servers =
      (pageAfter events).servers := by
  have hserver : serverOf (pageAfter events).messages data now = none := by
    rw [serverOf, mainMsgHandler_other h]
    rfl
  rw [pageAfter_concat, step_message_none hserver]

/-! ## No object twice -/

/-- The objects that are there and those that were reported were made by
different messages, all of which have come. -/
structure Numbered (p : Page) : Prop where
  nodup : ((p.reports ++ p.servers.values).map TServer.message).Nodup
  come : ∀ s ∈ p.reports ++ p.servers.values, s.message < p.messages

theorem numbered_start : Numbered Page.start.render :=
  ⟨List.nodup_nil, fun _ hs => (List.not_mem_nil hs).elim⟩

/-- A new object comes into the map, and may take the place of another. -/
theorem numbered_message {p : Page} (h : Numbered p) {s : TServer}
    (hs : s.message = p.messages) :
    Numbered
      { p with
        messages := p.messages + 1
        servers := p.servers.set s.serverName s } := by
  obtain ⟨rest, hsub, hperm⟩ := p.servers.values_set_perm s.serverName s
  have hold : (p.reports ++ rest).Sublist (p.reports ++ p.servers.values) :=
    hsub.append_left p.reports
  have hall : (p.reports ++ (p.servers.set s.serverName s).values).Perm
      (s :: (p.reports ++ rest)) :=
    (hperm.append_left p.reports).trans List.perm_middle
  constructor
  · refine ((hall.map TServer.message).nodup_iff).2 ?_
    rw [List.map_cons, List.nodup_cons]
    refine ⟨fun hmem => ?_, h.nodup.sublist (hold.map TServer.message)⟩
    obtain ⟨v, hv, hmessage⟩ := List.mem_map.1 hmem
    have hlt := h.come v (hold.subset hv)
    omega
  · intro v hv
    show v.message < p.messages + 1
    rcases List.mem_cons.1 (hall.mem_iff.1 hv) with rfl | hv
    · omega
    · have hlt := h.come v (hold.subset hv)
      omega

/-- What a sweep takes out of the map goes to the reports. -/
theorem sweep_perm (p : Page) (m : JsNumber) (now : MapKey → Int) :
    (p.reports ++ offlineIn p m now ++
        (p.servers.filter fun _ s => !isOffline m now s).values).Perm
      (p.reports ++ p.servers.values) := by
  have hkept : (p.servers.filter fun _ s => !isOffline m now s).values =
      p.servers.values.filter fun s => !isOffline m now s := by
    rw [OrderedMap.values, OrderedMap.values, List.filter_map]
    rfl
  rw [List.append_assoc, hkept]
  exact (List.filter_append_perm _ _).append_left p.reports

theorem serverOf_message {n : Nat} {data : JsString} {now : Int} {s : TServer}
    (h : serverOf n data now = some s) : s.message = n := by
  obtain ⟨server, _, rfl⟩ := Option.map_eq_some_iff.1 h
  rfl

theorem Numbered.step {events : List PageEvent} {p : Page} (h : Numbered p)
    (hfollowed : Followed events p) (e : PageEvent) :
    Numbered (p.step e) := by
  cases e with
  | message data now =>
      cases hserver : serverOf p.messages data now with
      | none =>
          rw [step_message_none hserver]
          exact ⟨h.nodup, fun s hs => Nat.lt_succ_of_lt (h.come s hs)⟩
      | some s =>
          rw [step_message_some hfollowed.subscribed hserver]
          have hnew := numbered_message h (serverOf_message hserver)
          exact ⟨hnew.nodup, hnew.come⟩
  | sweep m now =>
      have hperm := sweep_perm p m now
      rw [Page.step, sweep_eq hfollowed]
      exact
        { nodup := ((hperm.map TServer.message).nodup_iff).2 h.nodup
          come := fun s hs => h.come s (hperm.mem_iff.1 hs) }
  | render => exact ⟨h.nodup, h.come⟩

theorem numbered (events : List PageEvent) : Numbered (pageAfter events) := by
  induction events using List.reverseRecOn with
  | nil => exact numbered_start
  | append_singleton events e ih =>
      rw [pageAfter_concat]
      exact ih.step (followed events) e

/-! ## Every run -/

/-- The last pulse of the name that has come. -/
def lastPulse (events : List PageEvent) (name : MapKey) : Option TServer :=
  lastFor name ((opsOf events).filterMap ExpiryOp.write)

/-- The server came with a pulse, and has been spared since: no other pulse had
its name, and no sweep found it too old. -/
def Stays (events : List PageEvent) (name : MapKey) (s : TServer) : Prop :=
  ∃ before since, opsOf events = before ++ .set name s :: since ∧
    ∀ op ∈ since, op.Spares name s

/-- All the sweeps had this threshold, and read no later clock. -/
def SweptBefore (events : List PageEvent) (m : JsNumber)
    (now : MapKey → Int) : Prop :=
  ∀ m' now', .sweep m' now' ∈ events → m' = m ∧ ∀ name, now' name ≤ now name

/-- What holds after each run. -/
structure Lockstep (events : List PageEvent) : Prop where
  same : (pageAfter events).serversBuf = (pageAfter events).servers
  shown : (pageAfter events).shown = (pageAfter events).servers.values
  stays : ∀ name s,
    (pageAfter events).servers.get name = some s ↔ Stays events name s
  swept : ∀ m now, Swept m now (pageAfter events)
    (pageAfter (events ++ [.sweep m now]))
  recent : ∀ m now, SweptBefore events m now → ∀ name s,
    (pageAfter (events ++ [.sweep m now])).servers.get name = some s ↔
      lastPulse events name = some s ∧ isOffline m now s = false
  once : ((pageAfter events).reports ++
    (pageAfter events).servers.values).Nodup

theorem isOver_mono {age age' : Int} (h : age' ≤ age) {m : JsNumber}
    (hover : isOver age' m = true) : isOver age m = true := by
  cases m with
  | nan => cases hover
  | infinity neg => exact hover
  | dec d =>
      rw [isOver, decide_eq_true_eq] at hover ⊢
      have hscale : (0 : Int) ≤ 10 ^ d.scale := Int.pow_nonneg (by omega)
      exact Int.lt_of_lt_of_le hover (Int.mul_le_mul_of_nonneg_right h hscale)

theorem mem_opsFrom_sweep {keep : MapKey → TServer → Bool}
    {events : List PageEvent} {n : Nat} (h : .sweep keep ∈ opsFrom n events) :
    ∃ m now, .sweep m now ∈ events ∧ keep = fun _ s => !isOffline m now s := by
  induction events generalizing n with
  | nil => cases h
  | cons e events ih =>
      rw [opsFrom, List.mem_append] at h
      rcases h with h | h
      · cases e with
        | message data now =>
            rw [PageEvent.op, Option.mem_toList] at h
            obtain ⟨s, _, hset⟩ := Option.map_eq_some_iff.1 h
            cases hset
        | sweep m now =>
            rw [PageEvent.op, Option.mem_toList] at h
            cases h
            exact ⟨m, now, List.mem_cons_self, rfl⟩
        | render => cases h
      · obtain ⟨m, now, hmem, hkeep⟩ := ih h
        exact ⟨m, now, List.mem_cons_of_mem e hmem, hkeep⟩

/-- What is not too old now was not too old before. -/
theorem kept_before {events : List PageEvent} {m : JsNumber}
    {now : MapKey → Int} (h : SweptBefore events m now)
    {keep : MapKey → TServer → Bool} (hmem : .sweep keep ∈ opsOf events)
    {name : MapKey} {s : TServer} (hkept : (!isOffline m now s) = true) :
    keep name s = true := by
  obtain ⟨m', now', hsweep, rfl⟩ := mem_opsFrom_sweep hmem
  obtain ⟨rfl, hnow⟩ := h m' now' hsweep
  rw [Bool.not_eq_true'] at hkept ⊢
  rw [Bool.eq_false_iff] at hkept ⊢
  have hname := hnow s.serverName
  refine fun hover => hkept (isOver_mono ?_ hover)
  omega

theorem swept_step (events : List PageEvent) (m : JsNumber)
    (now : MapKey → Int) :
    Swept m now (pageAfter events) (pageAfter (events ++ [.sweep m now])) := by
  rw [pageAfter_concat, Page.step, sweep_eq (followed events)]
  exact ⟨rfl, rfl⟩

/-- The two maps never part, a sweep leaves just what is not too old, and
reports the rest once. -/
theorem lockstep (events : List PageEvent) : Lockstep events where
  same := (followed events).same
  shown := (followed events).shown
  stays := fun name s => by
    rw [(followed events).servers, get_afterOps]
    rfl
  swept := swept_step events
  recent := fun m now hbefore name s => by
    have hops : opsOf (events ++ [.sweep m now]) =
        opsOf events ++ [.sweep fun _ s => !isOffline m now s] :=
      opsOf_concat events _
    rw [(followed _).servers, hops, get_afterOps_sweep fun keep hmem name s =>
      kept_before hbefore hmem, Bool.not_eq_true']
    rfl
  once := (numbered events).nodup.of_map

end IotHome.HomepageFe
