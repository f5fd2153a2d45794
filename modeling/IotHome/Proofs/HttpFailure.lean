import IotHome.Server.HttpRequests

/-!
# How the two copies of `request` settle

The two differ in the rejection of the first promise only. While it is
pending nothing has happened; once it is resolved they do the same
(`foldl_resolved`); once it is rejected nothing touches the second promise
any more (`foldl_rejected`), which `HttpClientModule` has then rejected and
`DeviceCommonCmdTree` has not. So they settle in the same way exactly when the
request can be opened and does not fail before the response
(`request_eq_iff`).
-/

namespace IotHome.Server

open IotHome.Lib

/-- The request fails before there is a response. -/
def failsFirst : List NetEvent → Bool
  | [] => false
  | .error _ :: _ => true
  | .response :: _ => false
  | _ :: events => failsFirst events

variable (node : Node)

theorem event_resolved {x : Exchange} (h : x.stream = .resolved ())
    (catches : Bool) (e : NetEvent) :
    x.event node catches e = x.event node true e ∧
      (x.event node true e).stream = .resolved () := by
  obtain ⟨stream, buf, result⟩ := x
  obtain rfl : stream = .resolved () := h
  cases e with
  | error error => exact ⟨rfl, rfl⟩
  | response => exact ⟨rfl, rfl⟩
  | data chunk => exact ⟨rfl, rfl⟩
  | responseError error => exact ⟨rfl, rfl⟩
  | ended => exact ⟨rfl, rfl⟩

/-- After the response it makes no difference what is caught. -/
theorem foldl_resolved {x : Exchange} (h : x.stream = .resolved ())
    (catches : Bool) (events : List NetEvent) :
    events.foldl (Exchange.event node catches) x =
      events.foldl (Exchange.event node true) x := by
  induction events generalizing x with
  | nil => rfl
  | cons e events ih =>
      obtain ⟨heq, hstream⟩ := event_resolved node h catches e
      rw [List.foldl_cons, List.foldl_cons, heq]
      exact ih hstream

theorem event_rejected {x : Exchange} {error : HttpError}
    (h : x.stream = .rejected error) (catches : Bool) (e : NetEvent) :
    x.event node catches e = x := by
  obtain ⟨stream, buf, result⟩ := x
  obtain rfl : stream = .rejected error := h
  cases e with
  | error error => rfl
  | response => rfl
  | data chunk => rfl
  | responseError error => rfl
  | ended => rfl

/-- After a rejection the events of the network change nothing. -/
theorem foldl_rejected {x : Exchange} {error : HttpError}
    (h : x.stream = .rejected error) (catches : Bool)
    (events : List NetEvent) :
    events.foldl (Exchange.event node catches) x = x := by
  induction events with
  | nil => rfl
  | cons e events ih => rw [List.foldl_cons, event_rejected node h, ih]

/-- The two agree, or one is rejected and the other left pending. -/
theorem foldl_fresh (events : List NetEvent) :
    if failsFirst events then
      (∃ error, (events.foldl (Exchange.event node true)
        .fresh).result = .rejected error) ∧
      (events.foldl (Exchange.event node false) .fresh).result = .pending
    else
      events.foldl (Exchange.event node false) .fresh =
        events.foldl (Exchange.event node true) .fresh := by
  induction events with
  | nil => rfl
  | cons e events ih =>
      cases e with
      | error error =>
          rw [if_pos (by rfl), List.foldl_cons, List.foldl_cons,
            foldl_rejected node (by rfl), foldl_rejected node (by rfl)]
          exact ⟨⟨error, rfl⟩, rfl⟩
      | response =>
          have hresolved := foldl_resolved node
            (x := Exchange.fresh.event node true .response) rfl
          exact hresolved false events
      | data chunk => exact ih
      | responseError error => exact ih
      | ended => exact ih

theorem start_ok {opts : TRequestOpts} (h : openRequest node opts = .ok ())
    (catches : Bool) : Exchange.start node catches opts = .fresh := by
  rw [Exchange.start, h]

theorem start_error {opts : TRequestOpts} {error : HttpError}
    (h : openRequest node opts = .error error) (catches : Bool) :
    Exchange.start node catches opts =
      ⟨.rejected error, [], if catches then .rejected error else .pending⟩ := by
  rw [Exchange.start, h]
  rfl

/-- A request that cannot be opened, or that fails before the response. -/
theorem request_of_fails {opts : TRequestOpts} {events : List NetEvent}
    (h : ¬ (openRequest node opts = .ok () ∧ failsFirst events = false)) :
    (∃ error, HttpClientModule.request node opts events = .rejected error) ∧
      DeviceCommonCmdTree.request node opts events = .pending := by
  rw [HttpClientModule.request, DeviceCommonCmdTree.request, exchange,
    exchange]
  cases hopen : openRequest node opts with
  | error error =>
      rw [start_error node hopen, start_error node hopen,
        foldl_rejected node (by rfl), foldl_rejected node (by rfl)]
      exact ⟨⟨error, rfl⟩, rfl⟩
  | ok u =>
      have hfails : failsFirst events = true := by
        cases hf : failsFirst events with
        | true => rfl
        | false => exact absurd ⟨hopen, hf⟩ h
      have hfold := foldl_fresh node events
      rw [if_pos hfails] at hfold
      rw [start_ok node hopen, start_ok node hopen]
      exact hfold

/-- The two settle in the same way exactly when the request can be opened and
does not fail before the response. -/
theorem request_eq_iff (opts : TRequestOpts) (events : List NetEvent) :
    DeviceCommonCmdTree.request node opts events =
        HttpClientModule.request node opts events ↔
      openRequest node opts = .ok () ∧ failsFirst events = false := by
  by_cases h : openRequest node opts = .ok () ∧ failsFirst events = false
  · refine iff_of_true ?_ h
    have hfold := foldl_fresh node events
    rw [if_neg (by rw [h.2]; decide)] at hfold
    rw [HttpClientModule.request, DeviceCommonCmdTree.request, exchange,
      exchange, start_ok node h.1, start_ok node h.1, hfold]
  · refine iff_of_false (fun heq => ?_) h
    obtain ⟨⟨error, hrejected⟩, hpending⟩ := request_of_fails node h
    rw [hrejected, hpending] at heq
    cases heq

/-- A refused connection: one rejects, the other stays pending. -/
theorem request_refused :
    ∃ (node : Node) (opts : TRequestOpts) (error : HttpError),
      HttpClientModule.request node opts [.error error] = .rejected error ∧
      DeviceCommonCmdTree.request node opts [.error error] = .pending :=
  ⟨⟨fun _ => .ok ⟨"http:", "192.168.0.7", "", "/api", ""⟩,
      fun _ _ => .ok (), fun _ => []⟩,
    ⟨"http://192.168.0.7/api", .get⟩, ⟨some "ECONNREFUSED", "connect"⟩,
    rfl, rfl⟩

end IotHome.Server
