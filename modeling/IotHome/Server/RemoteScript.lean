import IotHome.Lib.Runs
import IotHome.Server.Messages

/-!
# Scripts run on the system server

`runRemoteScript` sends the name of a script and subscribes a handler for the
results that come back. The table of handlers is keyed by the name of the
handler, which is the same in every call.

A call is settled once. What resolves it is a result with the name of its
script; what rejects it is its timer, an error of the socket it was sent on,
or there being no socket. Names and texts in a result are values as they come
out of the message.
-/

namespace IotHome.Server

open IotHome.Lib

/-- The promise of a call, with what the closures in it hold. -/
inductive ScriptCall where
  | idle
  | pending (scriptFilename : JsString) (socket : Nat)
  | resolved (scriptFilename : JsString) (stdout stderr : JsValue)
  | rejected (scriptFilename : JsString)

/-- `responseHandler`: the call it resolves, and the name it compares. -/
structure ResponseHandler where
  call : Nat
  scriptFilename : JsString

/-- The system's side of the server: the socket messages are sent on, how
many have been connected, the handlers of `RUN_SCRIPT_RESULT`, what was sent,
and the calls. -/
structure ScriptState where
  sysClient : Option Nat
  sockets : Nat
  handlers : OrderedMap String ResponseHandler
  sent : List JsString
  calls : Nat → ScriptCall

inductive ScriptEvent where
  | connect
  | start (call : Nat) (scriptFilename : JsString)
  | message (data : JsString)
  | timeout (call : Nat)
  | error (socket : Nat)

def ScriptState.idle : ScriptState := ⟨none, 0, .empty, [], fun _ => .idle⟩

def ScriptState.setCall (s : ScriptState) (call : Nat) (phase : ScriptCall) :
    ScriptState :=
  { s with calls := fun c => if c = call then phase else s.calls c }

/-- `resolve` of a call; a promise that is settled stays as it is. -/
def ScriptState.resolve (s : ScriptState) (call : Nat)
    (stdout stderr : JsValue) : ScriptState :=
  match s.calls call with
  | .pending name _ => s.setCall call (.resolved name stdout stderr)
  | _ => s

def ScriptState.reject (s : ScriptState) (call : Nat) : ScriptState :=
  match s.calls call with
  | .pending name _ => s.setCall call (.rejected name)
  | _ => s

/-- `subscribe`, for `RUN_SCRIPT_RESULT`. -/
def ScriptState.subscribe (s : ScriptState) (handler : ResponseHandler)
    (handlerId : String) : ScriptState :=
  { s with handlers := s.handlers.set handlerId handler }

/-- `v === text`, for a text that is given. -/
def isJsText (v : JsValue) (text : JsString) : Bool :=
  match v with
  | some (.str s) => s == text
  | _ => false

def isScriptResponseMsg (obj : JsValue) : Bool :=
  isText (getProp? obj "type") "RUN_SCRIPT_RESULT"

def responseHandler (obj : JsValue) (s : ScriptState) (h : ResponseHandler) :
    ScriptState :=
  if isScriptResponseMsg obj then
    if isJsText (getProp? obj "scriptFilename") h.scriptFilename then
      s.resolve h.call (getProp? obj "stdout") (getProp? obj "stderr")
    else s
  else s

/-- The executor of the promise. -/
def runRemoteScript (s : ScriptState) (call : Nat)
    (scriptFilename : JsString) : ScriptState :=
  match s.sysClient with
  | none => s.setCall call (.rejected scriptFilename)
  | some socket =>
      { (s.setCall call (.pending scriptFilename socket)).subscribe
          ⟨call, scriptFilename⟩ "responseHandler" with
        sent := s.sent ++ [scriptFilename] }

def scriptStep (s : ScriptState) : ScriptEvent → Option ScriptState
  | .connect =>
      some { s with sysClient := some s.sockets, sockets := s.sockets + 1 }
  | .start call scriptFilename =>
      match s.calls call with
      | .idle => some (runRemoteScript s call scriptFilename)
      | _ => none
  | .message data =>
      if isScriptResponseMsg (parseMsg data) then
        some (s.handlers.values.foldl (responseHandler (parseMsg data)) s)
      else some s
  | .timeout call => some (s.reject call)
  | .error socket =>
      some { s with calls := fun c =>
        match s.calls c with
        | .pending name sock =>
            if sock = socket then .rejected name else .pending name sock
        | call => call }

/-- One event after the other. -/
abbrev ScriptRun : ScriptState → List ScriptEvent → ScriptState → Prop :=
  Run fun s e s' => scriptStep s e = some s'

/-! ## The table of handlers -/

/-- The only place handlers are subscribed at. -/
def ScriptState.slot (s : ScriptState) : Option ResponseHandler :=
  s.handlers.get "responseHandler"

def OneSlot (s : ScriptState) : Prop :=
  ∀ w ∈ s.handlers.entries, w.1 = "responseHandler"

theorem responseHandler_frame (obj : JsValue) (s : ScriptState)
    (h : ResponseHandler) :
    (responseHandler obj s h).handlers = s.handlers ∧
      (responseHandler obj s h).sysClient = s.sysClient := by
  have hresolve : ∀ stdout stderr,
      (s.resolve h.call stdout stderr).handlers = s.handlers ∧
        (s.resolve h.call stdout stderr).sysClient = s.sysClient := by
    intro stdout stderr
    rw [ScriptState.resolve]
    split
    · exact ⟨rfl, rfl⟩
    · exact ⟨rfl, rfl⟩
  rw [responseHandler]
  split
  · split
    · exact hresolve _ _
    · exact ⟨rfl, rfl⟩
  · exact ⟨rfl, rfl⟩

theorem foldl_responseHandler_frame (obj : JsValue)
    (hs : List ResponseHandler) (s : ScriptState) :
    (hs.foldl (responseHandler obj) s).handlers = s.handlers ∧
      (hs.foldl (responseHandler obj) s).sysClient = s.sysClient := by
  induction hs generalizing s with
  | nil => exact ⟨rfl, rfl⟩
  | cons h hs ih =>
      obtain ⟨hhandlers, hclient⟩ := ih (responseHandler obj s h)
      obtain ⟨hhandlers', hclient'⟩ := responseHandler_frame obj s h
      exact ⟨hhandlers.trans hhandlers', hclient.trans hclient'⟩

/-- A message goes to the handler that was subscribed last. -/
theorem foldl_handlers {s : ScriptState} (h : OneSlot s) (obj : JsValue) :
    s.handlers.values.foldl (responseHandler obj) s =
      match s.slot with
      | none => s
      | some handler => responseHandler obj s handler := by
  rw [ScriptState.slot, OrderedMap.values_of_one_key h]
  cases s.handlers.get "responseHandler" with
  | none => rfl
  | some handler => rfl

/-- The table changes when a call is sent, and there is a socket from the
first connection on. -/
theorem handlers_step {s s' : ScriptState} {e : ScriptEvent}
    (h : scriptStep s e = some s') :
    (s'.handlers = s.handlers ∧
      ((∀ call name, e ≠ .start call name) ∨ s.sysClient = none) ∧
      (s.sysClient ≠ none → s'.sysClient ≠ none)) ∨
    ∃ call name, e = .start call name ∧
      s'.handlers = s.handlers.set "responseHandler" ⟨call, name⟩ ∧
      s'.sysClient ≠ none := by
  cases e with
  | connect =>
      obtain rfl := Option.some.inj h
      exact .inl ⟨rfl, .inl nofun, fun _ => Option.some_ne_none _⟩
  | start call name =>
      rw [scriptStep] at h
      split at h
      · obtain rfl := Option.some.inj h
        rw [runRemoteScript]
        cases hclient : s.sysClient with
        | none => exact .inl ⟨rfl, .inr rfl, fun hne => absurd rfl hne⟩
        | some socket =>
            refine .inr ⟨call, name, rfl, rfl, ?_⟩
            show s.sysClient ≠ none
            rw [hclient]
            exact Option.some_ne_none socket
      · cases h
  | message data =>
      obtain ⟨hhandlers, hclient⟩ := foldl_responseHandler_frame
        (parseMsg data) s.handlers.values s
      rw [scriptStep] at h
      split at h
      · obtain rfl := Option.some.inj h
        exact .inl ⟨hhandlers, .inl nofun, fun hne => hclient ▸ hne⟩
      · obtain rfl := Option.some.inj h
        exact .inl ⟨rfl, .inl nofun, id⟩
  | timeout call =>
      obtain rfl := Option.some.inj h
      rw [ScriptState.reject]
      split
      · exact .inl ⟨rfl, .inl nofun, id⟩
      · exact .inl ⟨rfl, .inl nofun, id⟩
  | error socket =>
      obtain rfl := Option.some.inj h
      exact .inl ⟨rfl, .inl nofun, id⟩

theorem oneSlot_step {s s' : ScriptState} {e : ScriptEvent} (hs : OneSlot s)
    (h : scriptStep s e = some s') : OneSlot s' := by
  rcases handlers_step h with ⟨hsame, _⟩ | ⟨call, name, _, hset, _⟩
  · rw [OneSlot, hsame]
    exact hs
  · intro w hw
    have hkey : w.1 ∈ s'.handlers.keys := List.mem_map_of_mem hw
    rw [hset, OrderedMap.mem_keys_set] at hkey
    rcases hkey with heq | hold
    · exact heq
    · obtain ⟨u, hu, heq⟩ := List.mem_map.1 hold
      exact heq ▸ hs u hu

/-! ## What one event does to a call -/

def Matches (obj : JsValue) (scriptFilename : JsString) : Prop :=
  isScriptResponseMsg obj = true ∧
    isJsText (getProp? obj "scriptFilename") scriptFilename = true

/-- Only a call that waits can be resolved. -/
theorem calls_resolve (s : ScriptState) (call c : Nat)
    (stdout stderr : JsValue) :
    (s.resolve call stdout stderr).calls c = s.calls c ∨
      ∃ name socket, call = c ∧ s.calls c = .pending name socket ∧
        (s.resolve call stdout stderr).calls c =
          .resolved name stdout stderr := by
  rw [ScriptState.resolve]
  split
  · next name socket hpending =>
      by_cases hc : c = call
      · exact .inr ⟨name, socket, hc.symm, hc ▸ hpending, if_pos hc⟩
      · exact .inl (if_neg hc)
  · exact .inl rfl

theorem calls_reject (s : ScriptState) (call c : Nat) :
    (s.reject call).calls c = s.calls c ∨
      ∃ name socket, s.calls c = .pending name socket ∧
        (s.reject call).calls c = .rejected name := by
  rw [ScriptState.reject]
  split
  · next name socket hpending =>
      by_cases hc : c = call
      · exact .inr ⟨name, socket, hc ▸ hpending, if_pos hc⟩
      · exact .inl (if_neg hc)
  · exact .inl rfl

/-- A call that is started waits, with its handler subscribed, or is
rejected. -/
theorem calls_runRemoteScript (s : ScriptState) (call : Nat)
    (name : JsString) :
    (∃ socket, (runRemoteScript s call name).calls call =
        .pending name socket ∧
      (runRemoteScript s call name).slot = some ⟨call, name⟩) ∨
    (runRemoteScript s call name).calls call = .rejected name := by
  rw [runRemoteScript]
  cases s.sysClient with
  | none => exact .inr (if_pos rfl)
  | some socket =>
      exact .inl ⟨socket, if_pos rfl, OrderedMap.get_set_self _ _ _⟩

theorem calls_runRemoteScript_ne (s : ScriptState) {call c : Nat}
    (name : JsString) (hc : c ≠ call) :
    (runRemoteScript s call name).calls c = s.calls c := by
  rw [runRemoteScript]
  cases s.sysClient with
  | none => exact if_neg hc
  | some socket => exact if_neg hc

/-- A call is started, and waits or is rejected; or it waits no longer; or it
is resolved by the message, through the handler subscribed last; or nothing
happens to it. -/
theorem calls_step {s s' : ScriptState} {e : ScriptEvent} (hs : OneSlot s)
    (h : scriptStep s e = some s') (c : Nat) :
    s'.calls c = s.calls c ∨
    (∃ name, e = .start c name ∧ s.calls c = .idle ∧
      ((∃ socket, s'.calls c = .pending name socket ∧
          s'.slot = some ⟨c, name⟩) ∨
        s'.calls c = .rejected name)) ∨
    (∃ name socket, s.calls c = .pending name socket ∧
      s'.calls c = .rejected name) ∨
    (∃ name socket data handler, s.calls c = .pending name socket ∧
      e = .message data ∧ s.slot = some handler ∧ handler.call = c ∧
      Matches (parseMsg data) handler.scriptFilename ∧
      s'.calls c = .resolved name (getProp? (parseMsg data) "stdout")
        (getProp? (parseMsg data) "stderr")) := by
  cases e with
  | connect =>
      obtain rfl := Option.some.inj h
      exact .inl rfl
  | start call name =>
      rw [scriptStep] at h
      split at h
      · next hidle =>
          obtain rfl := Option.some.inj h
          by_cases hc : c = call
          · subst hc
            exact .inr (.inl ⟨name, rfl, hidle,
              calls_runRemoteScript s c name⟩)
          · exact .inl (calls_runRemoteScript_ne s name hc)
      · cases h
  | message data =>
      rw [scriptStep] at h
      split at h
      · next htype =>
          rw [foldl_handlers hs] at h
          obtain rfl := Option.some.inj h
          cases hslot : s.slot with
          | none => exact .inl rfl
          | some handler =>
              simp only [responseHandler, htype, if_true]
              split
              · next hname =>
                  rcases calls_resolve s handler.call c _ _ with
                    hsame | ⟨name, socket, hown, hpending, hresolved⟩
                  · exact .inl hsame
                  · exact .inr (.inr (.inr ⟨name, socket, data, handler,
                      hpending, rfl, rfl, hown, ⟨htype, hname⟩, hresolved⟩))
              · exact .inl rfl
      · obtain rfl := Option.some.inj h
        exact .inl rfl
  | timeout call =>
      obtain rfl := Option.some.inj h
      rcases calls_reject s call c with
        hsame | ⟨name, socket, hpending, hrejected⟩
      · exact .inl hsame
      · exact .inr (.inr (.inl ⟨name, socket, hpending, hrejected⟩))
  | error socket =>
      obtain rfl := Option.some.inj h
      cases hcall : s.calls c with
      | pending name sock =>
          simp only [hcall]
          split
          · exact .inr (.inr (.inl ⟨name, sock, rfl, rfl⟩))
          · exact .inl rfl
      | idle => exact .inl (by simp only [hcall])
      | resolved name stdout stderr => exact .inl (by simp only [hcall])
      | rejected name => exact .inl (by simp only [hcall])

theorem start_step {s s' : ScriptState} {c : Nat} {name : JsString}
    (h : scriptStep s (.start c name) = some s') :
    s'.calls c = .rejected name ∨ ∃ socket,
      s'.calls c = .pending name socket ∧ s'.slot = some ⟨c, name⟩ := by
  rw [scriptStep] at h
  split at h
  · obtain rfl := Option.some.inj h
    exact (calls_runRemoteScript s c name).symm
  · cases h

/-- A call whose handler is subscribed is resolved by its result. -/
theorem message_step {s s' : ScriptState} {c : Nat} {name : JsString}
    {data : JsString} {socket : Nat} (hs : OneSlot s)
    (h : scriptStep s (.message data) = some s')
    (hslot : s.slot = some ⟨c, name⟩)
    (hcall : s.calls c = .pending name socket)
    (hmatch : Matches (parseMsg data) name) :
    s'.calls c = .resolved name (getProp? (parseMsg data) "stdout")
      (getProp? (parseMsg data) "stderr") := by
  rw [scriptStep, if_pos hmatch.1, foldl_handlers hs, hslot] at h
  obtain rfl := Option.some.inj h
  simp only [responseHandler, hmatch.1, hmatch.2, if_true,
    ScriptState.resolve, hcall]
  exact if_pos rfl

end IotHome.Server
