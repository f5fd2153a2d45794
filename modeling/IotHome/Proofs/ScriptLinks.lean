import IotHome.Os.ScriptLinks
import IotHome.Proofs.RemoteScript

/-!
# Every result is that of one run of the script

`scripts_of_run`: whatever the two servers, the scripts and the connections do,
a request runs its script at most once, and a call that is resolved has the
texts of a run of its script, one that no other call is resolved with. Which
of the calls for one script gets which of its runs is left open, and it need
not be the run that the call itself has asked for.
-/

namespace IotHome.Os

open IotHome.Lib
open IotHome.Server

variable {cwd : JsString}

/-! ## What is written is read -/

/-- A message of texts only is read with the fields it was written with. -/
theorem getProp?_texts {props : List (String × JsValue)}
    (hnodup : (props.map Prod.fst).Nodup)
    (htexts : ∀ p ∈ props, ∃ t, p.2 = some (.str t)) {name : String}
    {v : JsValue} (h : (name, v) ∈ props) :
    getProp? (parseMsg (Json.stringify (definedObject props))) name = v := by
  have hcanonical : (definedObject props).Canonical := by
    refine definedObject_canonical hnodup fun p hp w hw => ?_
    obtain ⟨t, ht⟩ := htexts p hp
    obtain rfl := Option.some.inj (ht.symm.trans hw)
    exact .str t
  rw [parseMsg_stringify hcanonical]
  exact getProp?_definedObject hnodup h

theorem getProp?_request (scriptFilename : JsString) {name : String}
    {v : JsValue}
    (h : (name, v) ∈ [("type", some (Json.str (js "RUN_SCRIPT"))),
      ("scriptFilename", some (.str scriptFilename))]) :
    getProp? (parseMsg (Json.stringify (requestJson scriptFilename))) name =
      v := by
  refine getProp?_texts (by simp) (fun p hp => ?_) h
  simp only [List.mem_cons, List.not_mem_nil, or_false] at hp
  rcases hp with rfl | rfl
  · exact ⟨_, rfl⟩
  · exact ⟨_, rfl⟩

theorem getProp?_result (scriptFilename : JsString) (e : ScriptEnd)
    {name : String} {v : JsValue}
    (h : (name, v) ∈ [("type", some (Json.str (js "RUN_SCRIPT_RESULT"))),
      ("scriptFilename", some (.str scriptFilename)),
      ("stdout", some (.str e.stdout)), ("stderr", some (.str e.stderr))]) :
    getProp? (parseMsg (Json.stringify (resultJson scriptFilename e))) name =
      v := by
  refine getProp?_texts (by simp) (fun p hp => ?_) h
  simp only [List.mem_cons, List.not_mem_nil, or_false] at hp
  rcases hp with rfl | rfl | rfl | rfl
  · exact ⟨_, rfl⟩
  · exact ⟨_, rfl⟩
  · exact ⟨_, rfl⟩
  · exact ⟨_, rfl⟩

theorem scriptFilename_request (name : JsString) :
    scriptFilename (Json.stringify (requestJson name)) = some name := by
  have htype := @getProp?_request name "type" (some (.str (js "RUN_SCRIPT")))
    (by simp)
  have hname := @getProp?_request name "scriptFilename" (some (.str name))
    (by simp)
  rw [scriptFilename]
  simp only [htype, hname]
  rw [if_pos (by decide)]

theorem isJsText_iff {v : JsValue} {text : JsString} :
    isJsText v text = true ↔ v = some (.str text) := by
  cases v with
  | none => simp [isJsText]
  | some v => cases v <;> simp [isJsText]

/-- A result resolves calls for its script only. -/
theorem matches_result {name name' : JsString} {e : ScriptEnd}
    (h : Matches (parseMsg (Json.stringify (resultJson name e))) name') :
    name' = name := by
  have hname := isJsText_iff.1 h.2
  rw [@getProp?_result name e "scriptFilename" (some (.str name)) (by simp)]
    at hname
  exact (Json.str.inj (Option.some.inj hname)).symm

/-! ## What a step sends -/

theorem scriptStep_sent {s s' : ScriptState} {e : ScriptEvent}
    (h : scriptStep s e = some s') (hnot : ofOs e = false) :
    (∃ call name conn, e = .start call name ∧ s.sysClient = some conn ∧
      s.calls call = .idle ∧ s'.sent = s.sent ++ [name] ∧
      (s'.calls call).name? = some name) ∨
    (∀ call name, e = .start call name → s.sysClient = none) := by
  cases e with
  | connect => exact .inr fun _ _ he => by cases he
  | message data => cases hnot
  | timeout call => exact .inr fun _ _ he => by cases he
  | error socket => exact .inr fun _ _ he => by cases he
  | start call name =>
      cases hclient : s.sysClient with
      | none => exact .inr fun _ _ _ => rfl
      | some conn =>
          refine .inl ⟨call, name, conn, rfl, rfl, ?_⟩
          rw [scriptStep] at h
          split at h
          · next hidle =>
              obtain rfl := Option.some.inj h
              refine ⟨hidle, ?_, ?_⟩
              · rw [runRemoteScript, hclient]
              · rw [runRemoteScript, hclient]
                show (ScriptState.calls _ call).name? = some name
                exact congrArg ScriptCall.name? (if_pos rfl)
          · cases h

/-- What the integration server does by itself, and what it sends then. -/
theorem atServer_cases {s : ScriptNet} {caller : ScriptState} {e : ScriptEvent}
    (h : scriptStep s.caller e = some caller) (hnot : ofOs e = false) :
    s.atServer caller e = { s with caller := caller } ∨
    ∃ call name conn, s.caller.calls call = .idle ∧
      (caller.calls call).name? = some name ∧
      s.atServer caller e = ScriptNet.put { s with caller := caller }
        (.toOs conn) (Json.stringify (requestJson name)) (.request call) := by
  rcases scriptStep_sent h hnot with
    ⟨call, name, conn, rfl, hclient, hidle, hsent, hname⟩ | hnone
  · refine .inr ⟨call, name, conn, hidle, hname, ?_⟩
    simp only [ScriptNet.atServer, hclient, hsent, List.drop_left]
    rfl
  · refine .inl ?_
    cases e with
    | start call name =>
        simp only [ScriptNet.atServer, hnone call name rfl]
    | _ => rfl

/-! ## What holds at any time -/

def ScriptOrigin.call? : ScriptOrigin → Option Nat
  | .request call => some call
  | _ => none

def ScriptOrigin.process? : ScriptOrigin → Option Nat
  | .result process => some process
  | _ => none

/-- Where a message on a link has come from. -/
def SentFor (s : ScriptNet) (m : ScriptParcel) : ScriptLink → Prop
  | .toOs _ => ∃ call name, m.origin = .request call ∧
      m.text = Json.stringify (requestJson name) ∧
      (s.caller.calls call).name? = some name
  | .fromOs _ =>
      (m.origin = .other ∧ isScriptResponseMsg (parseMsg m.text) = false) ∨
      ∃ (r : Nat) (p : ScriptProcess) (e : ScriptEnd), m.origin = .result r ∧
        s.processes[r]? = some p ∧ p.ended = some e ∧
        m.text = Json.stringify (resultJson p.scriptFilename e)

/-- A script was started for a call. -/
def StartedFor (cwd : JsString) (s : ScriptNet) (p : ScriptProcess)
    (call : Nat) : Prop :=
  p.command = runScript cwd p.scriptFilename ∧
    (s.caller.calls call).name? = some p.scriptFilename ∧
    ∃ conn m, s.links.sent[p.request]? = some (.toOs conn, m) ∧
      m.origin = .request call

/-- A message has the texts that a call was resolved with. -/
def ResolvedBy (s : ScriptNet) (name : JsString) (stdout stderr : JsValue)
    (message r : Nat) : Prop :=
  (∃ conn m, s.links.sent[message]? = some (.fromOs conn, m) ∧
    m.origin = .result r) ∧
  ∃ p e, s.processes[r]? = some p ∧ p.scriptFilename = name ∧
    p.ended = some e ∧ stdout = some (.str e.stdout) ∧
    stderr = some (.str e.stderr)

def ScriptNet.requests (s : ScriptNet) : List Nat :=
  s.links.sent.filterMap fun x => x.2.origin.call?

def ScriptNet.results (s : ScriptNet) : List Nat :=
  s.links.sent.filterMap fun x => x.2.origin.process?

def IsResolved (s : ScriptNet) (c : Nat) : Prop :=
  ∃ name stdout stderr, s.caller.calls c = .resolved name stdout stderr

/-- Each call that is resolved has a message of its own that did it. -/
def ScriptNet.Attributed (s : ScriptNet) : Prop :=
  ∃ message : Nat → Nat,
    (∀ c name stdout stderr, s.caller.calls c = .resolved name stdout stderr →
      message c ∈ s.links.taken ∧
        ∃ r, ResolvedBy s name stdout stderr (message c) r) ∧
    ∀ c c', IsResolved s c → IsResolved s c' → message c = message c' → c = c'

structure ScriptNet.Ok (cwd : JsString) (s : ScriptNet) : Prop where
  traced : ∃ done, Traced done s.caller
  links : s.links.Ok
  sentFor : ∀ (i : Nat) link m, s.links.sent[i]? = some (link, m) →
    SentFor s m link
  requests : s.requests.Nodup
  results : s.results.Nodup
  processes : ∀ (r : Nat) p, s.processes[r]? = some p →
    ∃ call, StartedFor cwd s p call
  started : (s.processes.map ScriptProcess.request).Sublist s.links.taken
  attributed : s.Attributed

theorem ScriptNet.ok_start (cwd : JsString) : ScriptNet.start.Ok cwd where
  traced := ⟨[], traced_idle⟩
  links := Links.ok_empty
  sentFor i link m h := by simp [start, Links.empty] at h
  requests := List.nodup_nil
  results := List.nodup_nil
  processes r p h := by simp [start] at h
  started := List.Sublist.refl _
  attributed := by
    refine ⟨id, fun c name stdout stderr h => ?_, fun c c' h => ?_⟩
    · cases h
    · obtain ⟨name, stdout, stderr, h⟩ := h
      cases h

/-! ## What is kept -/

/-- A script later on: when it has ended, it stays as it is. -/
def GoesOn (p p' : ScriptProcess) : Prop :=
  p'.scriptFilename = p.scriptFilename ∧ p'.command = p.command ∧
    p'.request = p.request ∧ ∀ e, p.ended = some e → p'.ended = some e

theorem GoesOn.refl (p : ScriptProcess) : GoesOn p p :=
  ⟨rfl, rfl, rfl, fun _ h => h⟩

/-- Nothing that was sent or started is taken back, and calls keep their
names. -/
structure Extends (s s' : ScriptNet) : Prop where
  sent : ∀ (i : Nat) x, s.links.sent[i]? = some x →
    s'.links.sent[i]? = some x
  processes : ∀ (r : Nat) p, s.processes[r]? = some p →
    ∃ p', s'.processes[r]? = some p' ∧ GoesOn p p'
  names : ∀ c name, (s.caller.calls c).name? = some name →
    (s'.caller.calls c).name? = some name

theorem SentFor.mono {s s' : ScriptNet} (h : Extends s s') {m : ScriptParcel}
    {link : ScriptLink} (hm : SentFor s m link) : SentFor s' m link := by
  cases link with
  | toOs conn =>
      obtain ⟨call, name, horigin, htext, hname⟩ := hm
      exact ⟨call, name, horigin, htext, h.names call name hname⟩
  | fromOs conn =>
      rcases hm with hother | ⟨r, p, e, horigin, hp, he, htext⟩
      · exact .inl hother
      · obtain ⟨p', hp', hfile, _, _, hended⟩ := h.processes r p hp
        exact .inr ⟨r, p', e, horigin, hp', hended e he, hfile ▸ htext⟩

theorem StartedFor.mono {s s' : ScriptNet} (h : Extends s s')
    {p p' : ScriptProcess} (hp : GoesOn p p') {call : Nat}
    (hs : StartedFor cwd s p call) : StartedFor cwd s' p' call := by
  obtain ⟨hcommand, hname, conn, m, hsent, horigin⟩ := hs
  obtain ⟨hfile, hsame, hrequest, _⟩ := hp
  refine ⟨by rw [hsame, hfile, hcommand], ?_, conn, m, ?_, horigin⟩
  · rw [hfile]
    exact h.names call _ hname
  · rw [hrequest]
    exact h.sent _ _ hsent

theorem ResolvedBy.mono {s s' : ScriptNet} (h : Extends s s')
    {name : JsString} {stdout stderr : JsValue} {message r : Nat}
    (hr : ResolvedBy s name stdout stderr message r) :
    ResolvedBy s' name stdout stderr message r := by
  obtain ⟨⟨conn, m, hsent, horigin⟩, p, e, hp, hname, he, hstdout, hstderr⟩ := hr
  obtain ⟨p', hp', hfile, _, _, hended⟩ := h.processes r p hp
  exact ⟨⟨conn, m, h.sent _ _ hsent, horigin⟩, p', e, hp', hfile.trans hname,
    hended e he, hstdout, hstderr⟩

theorem ScriptNet.Attributed.mono {s s' : ScriptNet} (h : s.Attributed)
    (hext : Extends s s')
    (htaken : s.links.taken.Sublist s'.links.taken)
    (hsame : ∀ c name stdout stderr,
      s'.caller.calls c = .resolved name stdout stderr ↔
        s.caller.calls c = .resolved name stdout stderr) : s'.Attributed := by
  obtain ⟨message, hmessage, hinj⟩ := h
  refine ⟨message, fun c name stdout stderr hc => ?_, fun c c' hc hc' => ?_⟩
  · obtain ⟨hmem, r, hr⟩ := hmessage c name stdout stderr ((hsame ..).1 hc)
    exact ⟨htaken.subset hmem, r, hr.mono hext⟩
  · simp only [IsResolved, hsame] at hc hc'
    exact hinj c c' hc hc'

/-- A call is resolved with a message that was not taken before. -/
theorem ScriptNet.Attributed.resolve {s s' : ScriptNet} (h : s.Attributed)
    (hext : Extends s s') {call i r : Nat} {name : JsString}
    {stdout stderr : JsValue}
    (htaken : s'.links.taken = s.links.taken ++ [i])
    (hfresh : i ∉ s.links.taken)
    (hres : s'.caller.calls call = .resolved name stdout stderr)
    (hr : ResolvedBy s name stdout stderr i r)
    (hother : ∀ c, c ≠ call → ∀ name stdout stderr,
      s'.caller.calls c = .resolved name stdout stderr ↔
        s.caller.calls c = .resolved name stdout stderr) :
    s'.Attributed := by
  obtain ⟨message, hmessage, hinj⟩ := h
  have hold : ∀ c, c ≠ call → IsResolved s' c → message c ≠ i := by
    intro c hc hcall heq
    obtain ⟨name, stdout, stderr, hcall⟩ := hcall
    have hmem := (hmessage c _ _ _ ((hother c hc ..).1 hcall)).1
    exact hfresh (heq ▸ hmem)
  refine ⟨Function.update message call i,
    fun c name' stdout' stderr' hc => ?_, fun c c' hc hc' => ?_⟩
  · rw [htaken]
    by_cases heq : c = call
    · subst heq
      obtain ⟨rfl, rfl, rfl⟩ := ScriptCall.resolved.inj (hres.symm.trans hc)
      rw [Function.update_self]
      exact ⟨List.mem_append_right _ (List.mem_singleton.2 rfl), r,
        hr.mono hext⟩
    · rw [Function.update_of_ne heq]
      obtain ⟨hmem, r', hr'⟩ :=
        hmessage c name' stdout' stderr' ((hother c heq ..).1 hc)
      exact ⟨List.mem_append_left _ hmem, r', hr'.mono hext⟩
  · by_cases heq : c = call
    · by_cases heq' : c' = call
      · exact fun _ => heq.trans heq'.symm
      · rw [heq, Function.update_self, Function.update_of_ne heq']
        exact fun hi => absurd hi.symm (hold c' heq' hc')
    · by_cases heq' : c' = call
      · rw [heq', Function.update_self, Function.update_of_ne heq]
        exact fun hi => absurd hi (hold c heq hc)
      · obtain ⟨name₁, stdout₁, stderr₁, hc⟩ := hc
        obtain ⟨name₂, stdout₂, stderr₂, hc'⟩ := hc'
        rw [Function.update_of_ne heq, Function.update_of_ne heq']
        exact hinj c c' ⟨_, _, _, (hother c heq ..).1 hc⟩
          ⟨_, _, _, (hother c' heq' ..).1 hc'⟩

theorem ScriptNet.extends_put (s : ScriptNet) (link : ScriptLink)
    (text : JsString) (origin : ScriptOrigin) :
    Extends s (s.put link text origin) where
  sent _ _ hx := Links.getElem?_sent_send.2 (.inl hx)
  processes _ p hp := ⟨p, hp, .refl p⟩
  names _ _ hname := hname

/-- Without a result, nothing is resolved and names stay. -/
theorem calls_kept {s s' : ScriptState} {e : ScriptEvent} (hs : OneSlot s)
    (h : scriptStep s e = some s') (hnot : ofOs e = false) (c : Nat)
    {name : JsString} {stdout stderr : JsValue} :
    s'.calls c = .resolved name stdout stderr ↔
      s.calls c = .resolved name stdout stderr := by
  rcases calls_step hs h c with hsame |
    ⟨_, _, hidle, ⟨_, hpending, _⟩ | hrejected⟩ |
    ⟨_, _, hpending, hrejected⟩ | ⟨_, _, _, _, _, rfl, _⟩
  · rw [hsame]
  · rw [hidle, hpending]
    exact iff_of_false (by simp) (by simp)
  · rw [hidle, hrejected]
    exact iff_of_false (by simp) (by simp)
  · rw [hpending, hrejected]
    exact iff_of_false (by simp) (by simp)
  · cases hnot

/-- The links may be changed in any way that sends nothing, and the calls in
any way that keeps their names. -/
theorem ScriptNet.Ok.of_links {s s' : ScriptNet} (h : s.Ok cwd)
    (hlinks : s'.links.Ok) (hsent : s'.links.sent = s.links.sent)
    (hprocesses : s'.processes = s.processes)
    (htaken : s.links.taken.Sublist s'.links.taken)
    (htraced : ∃ done, Traced done s'.caller)
    (hnames : ∀ c name, (s.caller.calls c).name? = some name →
      (s'.caller.calls c).name? = some name)
    (hattributed : Extends s s' → s'.Attributed) : s'.Ok cwd := by
  have hext : Extends s s' :=
    ⟨fun i x hx => by rwa [hsent],
      fun r p hp => ⟨p, hprocesses ▸ hp, .refl p⟩, hnames⟩
  refine ⟨htraced, hlinks, fun i link m hm => ?_, ?_, ?_, fun r p hp => ?_, ?_,
    hattributed hext⟩
  · rw [hsent] at hm
    exact (h.sentFor i link m hm).mono hext
  · rw [ScriptNet.requests, hsent]
    exact h.requests
  · rw [ScriptNet.results, hsent]
    exact h.results
  · rw [hprocesses] at hp
    obtain ⟨call, hcall⟩ := h.processes r p hp
    exact ⟨call, hcall.mono hext (.refl p)⟩
  · rw [hprocesses]
    exact h.started.trans htaken

theorem ScriptNet.Ok.took {s : ScriptNet} (h : s.Ok cwd) {link : ScriptLink}
    {i : Nat} {m : ScriptParcel} (hnext : s.links.next link = some (i, m)) :
    (s.took link i).Ok cwd :=
  h.of_links (h.links.take hnext) rfl rfl (List.sublist_append_left _ _)
    h.traced (fun _ _ hname => hname) fun hext =>
      h.attributed.mono hext (List.sublist_append_left _ _) fun _ _ _ _ => .rfl

/-- A request may be sent for a new call, and a result for a script that has
sent none. -/
theorem ScriptNet.Ok.put {s : ScriptNet} (h : s.Ok cwd) {link : ScriptLink}
    {text : JsString} {origin : ScriptOrigin}
    (hsent : SentFor s ⟨text, origin⟩ link)
    (hrequests : ∀ call ∈ origin.call?, call ∉ s.requests)
    (hresults : ∀ r ∈ origin.process?, r ∉ s.results) :
    (s.put link text origin).Ok cwd := by
  have hext := s.extends_put link text origin
  have hcat : ∀ f : ScriptOrigin → Option Nat,
      (s.put link text origin).links.sent.filterMap
          (fun x : ScriptLink × ScriptParcel => f x.2.origin) =
        s.links.sent.filterMap (fun x => f x.2.origin) ++ (f origin).toList := by
    intro f
    rw [ScriptNet.put, Links.send, List.filterMap_append]
    cases hf : f origin with
    | none => simp [hf]
    | some i => simp [hf]
  have hnodup : ∀ {xs : List Nat} {x : Option Nat}, xs.Nodup →
      (∀ i ∈ x, i ∉ xs) → (xs ++ x.toList).Nodup := by
    intro xs x hxs hx
    refine List.nodup_append.2 ⟨hxs, by cases x <;> simp, fun i hi j hj => ?_⟩
    rintro rfl
    exact hx i (Option.mem_toList.1 hj) hi
  refine ⟨h.traced, h.links.send link _, fun i link' m hm => ?_, ?_, ?_,
    fun r p hp => ?_, h.started,
    h.attributed.mono hext (List.Sublist.refl _) fun _ _ _ _ => .rfl⟩
  · rcases Links.getElem?_sent_send.1 hm with hold | ⟨_, hnew⟩
    · exact (h.sentFor i link' m hold).mono hext
    · obtain ⟨rfl, rfl⟩ := Prod.mk.inj hnew
      exact hsent.mono hext
  · rw [ScriptNet.requests, hcat]
    exact hnodup h.requests hrequests
  · rw [ScriptNet.results, hcat]
    exact hnodup h.results hresults
  · obtain ⟨call, hcall⟩ := h.processes r p hp
    exact ⟨call, hcall.mono hext (.refl p)⟩

/-- A call that has sent its request has been started. -/
theorem ScriptNet.Ok.name_of_request {s : ScriptNet} (h : s.Ok cwd)
    {call : Nat} (hmem : call ∈ s.requests) :
    ∃ name, (s.caller.calls call).name? = some name := by
  obtain ⟨x, hx, hcall⟩ := List.mem_filterMap.1 hmem
  obtain ⟨i, hi⟩ := List.mem_iff_getElem?.1 hx
  have hfor := h.sentFor i x.1 x.2 hi
  cases hlink : x.1 with
  | toOs conn =>
      rw [hlink] at hfor
      obtain ⟨call', name, horigin, _, hname⟩ := hfor
      rw [horigin] at hcall
      exact ⟨name, Option.some.inj hcall ▸ hname⟩
  | fromOs conn =>
      rw [hlink] at hfor
      rcases hfor with ⟨hother, _⟩ | ⟨r, _, _, hresult, _⟩
      · rw [hother] at hcall
        cases hcall
      · rw [hresult] at hcall
        cases hcall

/-- A script that has sent its result has ended. -/
theorem ScriptNet.Ok.ended_of_result {s : ScriptNet} (h : s.Ok cwd) {r : Nat}
    (hmem : r ∈ s.results) : ∃ p e, s.processes[r]? = some p ∧
      p.ended = some e := by
  obtain ⟨x, hx, hr⟩ := List.mem_filterMap.1 hmem
  obtain ⟨i, hi⟩ := List.mem_iff_getElem?.1 hx
  have hfor := h.sentFor i x.1 x.2 hi
  cases hlink : x.1 with
  | toOs conn =>
      rw [hlink] at hfor
      obtain ⟨call, _, horigin, _⟩ := hfor
      rw [horigin] at hr
      cases hr
  | fromOs conn =>
      rw [hlink] at hfor
      rcases hfor with ⟨hother, _⟩ | ⟨r', p, e, hresult, hp, he, _⟩
      · rw [hother] at hr
        cases hr
      · rw [hresult] at hr
        obtain rfl := Option.some.inj hr
        exact ⟨p, e, hp, he⟩

theorem ScriptNet.Ok.atServer {s : ScriptNet} (h : s.Ok cwd)
    {caller : ScriptState} {e : ScriptEvent}
    (hstep : scriptStep s.caller e = some caller) (hnot : ofOs e = false) :
    (s.atServer caller e).Ok cwd := by
  obtain ⟨done, htraced⟩ := h.traced
  have hcaller : ScriptNet.Ok cwd { s with caller := caller } :=
    h.of_links h.links rfl rfl (List.Sublist.refl _)
      ⟨_, traced_step htraced hstep⟩
      (fun c name hname => name?_step htraced.oneSlot hstep hname)
      fun hext => h.attributed.mono hext (List.Sublist.refl _)
        fun c _ _ _ => calls_kept htraced.oneSlot hstep hnot c
  rcases atServer_cases hstep hnot with heq | ⟨call, name, conn, hidle, hname, heq⟩
  · rw [heq]
    exact hcaller
  · rw [heq]
    refine hcaller.put ⟨call, name, rfl, rfl, hname⟩ (fun c hc hmem => ?_)
      fun r hr => by cases hr
    obtain rfl := Option.some.inj hc
    obtain ⟨name', hname'⟩ := h.name_of_request hmem
    rw [hidle] at hname'
    cases hname'

/-- The processes may change in any way that keeps those there are. -/
theorem ScriptNet.Ok.of_processes {s : ScriptNet} (h : s.Ok cwd)
    {processes : List ScriptProcess}
    (hkept : ∀ (r : Nat) p, s.processes[r]? = some p →
      ∃ p', processes[r]? = some p' ∧ GoesOn p p')
    (hnew : ∀ (r : Nat) p', processes[r]? = some p' →
      (∃ p, s.processes[r]? = some p ∧ GoesOn p p') ∨
        ∃ call, StartedFor cwd s p' call)
    (hstarted : (processes.map ScriptProcess.request).Sublist s.links.taken) :
    ScriptNet.Ok cwd { s with processes := processes } := by
  have hext : Extends s { s with processes := processes } :=
    ⟨fun _ _ hx => hx, hkept, fun _ _ hname => hname⟩
  refine ⟨h.traced, h.links, fun i link m hm => (h.sentFor i link m hm).mono hext,
    h.requests, h.results, fun r p' hp' => ?_, hstarted,
    h.attributed.mono hext (List.Sublist.refl _) fun _ _ _ _ => .rfl⟩
  · rcases hnew r p' hp' with ⟨p, hp, hgoesOn⟩ | ⟨call, hcall⟩
    · obtain ⟨call, hcall⟩ := h.processes r p hp
      exact ⟨call, hcall.mono hext hgoesOn⟩
    · exact ⟨call, hcall.mono hext (.refl p')⟩

/-- A request starts its script. -/
theorem ScriptNet.Ok.atOs {s : ScriptNet} (h : s.Ok cwd) {conn i : Nat}
    {m : ScriptParcel} (hnext : s.links.next (.toOs conn) = some (i, m)) :
    ((s.took (.toOs conn) i).started cwd i m.text).Ok cwd := by
  have htook := h.took hnext
  have hsent := h.links.sent_of_next hnext
  obtain ⟨call, name, horigin, htext, hname⟩ := h.sentFor i _ m hsent
  rw [ScriptNet.started, htext, scriptFilename_request]
  refine htook.of_processes (fun r p hp => ⟨p, ?_, .refl p⟩)
    (fun r p' hp' => ?_) ?_
  · show (s.processes ++ _)[r]? = some p
    exact (List.getElem?_append_left (List.getElem?_eq_some_iff.1 hp).1).trans hp
  · rw [List.getElem?_append] at hp'
    split at hp'
    · exact .inl ⟨p', hp', .refl p'⟩
    · obtain rfl := List.mem_singleton.1 (List.mem_of_getElem? hp')
      exact .inr ⟨call, rfl, hname, conn, m, hsent, horigin⟩
  · show ((s.processes ++ _).map _).Sublist (s.links.taken ++ [i])
    rw [List.map_append]
    exact h.started.append (List.Sublist.refl [i])

/-- A script ends, and sends its result if it has not lost its socket. -/
theorem ScriptNet.Ok.ends {s : ScriptNet} (h : s.Ok cwd) {r : Nat}
    {p : ScriptProcess} (hp : s.processes[r]? = some p)
    (hfresh : p.ended = none) (e : ScriptEnd) : (s.ended r p e).Ok cwd := by
  have hlt := (List.getElem?_eq_some_iff.1 hp).1
  have hgoesOn : GoesOn p { p with ended := some e } :=
    ⟨rfl, rfl, rfl, fun e' he' => by rw [hfresh] at he'; cases he'⟩
  have hset : ∀ r' : Nat, (s.processes.set r { p with ended := some e })[r']? =
      if r = r' then some { p with ended := some e } else s.processes[r']? := by
    intro r'
    rw [List.getElem?_set]
    simp only [hlt, if_true]
  have hok : ScriptNet.Ok cwd { s with
      processes := s.processes.set r { p with ended := some e } } := by
    refine h.of_processes (fun r' p' hp' => ?_) (fun r' p' hp' => .inl ?_) ?_
    · rw [hset]
      split
      · next heq =>
          obtain rfl := Option.some.inj (hp.symm.trans (heq ▸ hp'))
          exact ⟨_, rfl, hgoesOn⟩
      · exact ⟨p', hp', .refl p'⟩
    · rw [hset] at hp'
      split at hp'
      · next heq =>
          obtain rfl := Option.some.inj hp'
          exact ⟨p, heq ▸ hp, hgoesOn⟩
      · exact ⟨p', hp', .refl p'⟩
    · have hsame : (s.processes.set r { p with ended := some e }).map
          ScriptProcess.request = s.processes.map ScriptProcess.request := by
        refine List.ext_getElem? fun r' => ?_
        rw [List.getElem?_map, List.getElem?_map, hset]
        split
        · next heq =>
            rw [← heq, hp]
            rfl
        · rfl
      rw [hsame]
      exact h.started
  unfold ScriptNet.ended
  split
  · exact hok
  · next conn _ =>
      have hget : (s.processes.set r { p with ended := some e })[r]? =
          some { p with ended := some e } := by rw [hset, if_pos rfl]
      have hfor : SentFor { s with
          processes := s.processes.set r { p with ended := some e } }
          ⟨Json.stringify (resultJson p.scriptFilename e), .result r⟩
          (.fromOs conn) := .inr ⟨r, _, e, rfl, hget, rfl, rfl⟩
      refine hok.put hfor (fun c hc => by cases hc) fun r' hr' hmem => ?_
      · obtain rfl := Option.some.inj hr'
        obtain ⟨p', e', hp', he'⟩ := h.ended_of_result hmem
        obtain rfl := Option.some.inj (hp.symm.trans hp')
        rw [hfresh] at he'
        cases he'

/-- A message that resolves a call is the result of a run of its script. -/
theorem ScriptNet.Ok.resolvedBy {s : ScriptNet} (h : s.Ok cwd)
    {done : List ScriptEvent} (htraced : Traced done s.caller) {i conn : Nat}
    {m : ScriptParcel} (hsent : s.links.sent[i]? = some (.fromOs conn, m))
    {handler : ResponseHandler} (hslot : s.caller.slot = some handler)
    {name : JsString} {socket : Nat}
    (hpending : s.caller.calls handler.call = .pending name socket)
    (hmatch : Matches (parseMsg m.text) handler.scriptFilename) :
    ∃ r, ResolvedBy s name (getProp? (parseMsg m.text) "stdout")
      (getProp? (parseMsg m.text) "stderr") i r := by
  obtain ⟨bs, between, hdone, _⟩ := htraced.slot handler hslot
  have hname := htraced.name handler.call handler.scriptFilename
    (by rw [hdone]; simp)
  rw [hpending] at hname
  obtain rfl : name = handler.scriptFilename := Option.some.inj hname
  rcases h.sentFor i _ m hsent with ⟨_, hnot⟩ | ⟨r, p, e, horigin, hp, he, htext⟩
  · rw [hmatch.1] at hnot
    cases hnot
  · rw [htext] at hmatch ⊢
    refine ⟨r, ⟨conn, m, hsent, horigin⟩, p, e, hp, (matches_result hmatch).symm,
      he, getProp?_result _ e (by simp), getProp?_result _ e (by simp)⟩

theorem ScriptNet.Ok.atCaller {s : ScriptNet} (h : s.Ok cwd) {conn i : Nat}
    {m : ScriptParcel} (hnext : s.links.next (.fromOs conn) = some (i, m))
    {caller : ScriptState}
    (hstep : scriptStep s.caller (.message m.text) = some caller) :
    ScriptNet.Ok cwd { s.took (.fromOs conn) i with caller := caller } := by
  obtain ⟨done, htraced⟩ := h.traced
  have hsent := h.links.sent_of_next hnext
  have hcalls := calls_step htraced.oneSlot hstep
  refine h.of_links (h.links.take hnext) rfl rfl (List.sublist_append_left _ _)
    ⟨_, traced_step htraced hstep⟩
    (fun c name hname => name?_step htraced.oneSlot hstep hname) fun hext => ?_
  by_cases hnew : ∃ name socket handler,
      s.caller.calls handler.call = .pending name socket ∧
      s.caller.slot = some handler ∧
      Matches (parseMsg m.text) handler.scriptFilename ∧
      caller.calls handler.call = .resolved name
        (getProp? (parseMsg m.text) "stdout")
        (getProp? (parseMsg m.text) "stderr")
  · obtain ⟨name, socket, handler, hpending, hslot, hmatch, hres⟩ := hnew
    obtain ⟨r, hr⟩ := h.resolvedBy htraced hsent hslot hpending hmatch
    have hother : ∀ c, c ≠ handler.call → ∀ name stdout stderr,
        caller.calls c = .resolved name stdout stderr ↔
          s.caller.calls c = .resolved name stdout stderr := by
      intro c hc name stdout stderr
      rcases hcalls c with hsame | ⟨_, he, _⟩ | ⟨_, _, hwas, hrejected⟩ |
        ⟨_, _, _, handler', _, _, hslot', heq, _⟩
      · rw [hsame]
      · cases he
      · rw [hwas, hrejected]
        exact iff_of_false (by simp) (by simp)
      · obtain rfl := Option.some.inj (hslot.symm.trans hslot')
        exact absurd heq.symm hc
    have hfresh : i ∉ s.links.taken := by
      have hnodup := (h.links.take hnext).nodup_taken
      exact fun hmem => (List.nodup_append.1 hnodup).2.2 i hmem i
        (List.mem_singleton.2 rfl) rfl
    exact h.attributed.resolve hext rfl hfresh hres hr hother
  · refine h.attributed.mono hext (List.sublist_append_left _ _)
      fun c name stdout stderr => ?_
    rcases hcalls c with hsame | ⟨_, he, _⟩ | ⟨_, _, hwas, hrejected⟩ |
      ⟨name', socket, data, handler, hpending, he, hslot, rfl, hmatch, hres⟩
    · show caller.calls c = _ ↔ _
      rw [hsame]
    · cases he
    · show caller.calls c = _ ↔ _
      rw [hwas, hrejected]
      exact iff_of_false (by simp) (by simp)
    · obtain rfl := ScriptEvent.message.inj he
      exact absurd ⟨name', socket, handler, hpending, hslot, hmatch, hres⟩ hnew

theorem ScriptNet.Ok.step {s s' : ScriptNet} {e : ScriptNetEvent}
    (h : s.Ok cwd) (hstep : scriptNetStep cwd s e = some s') : s'.Ok cwd := by
  cases e with
  | caller e =>
      rw [scriptNetStep] at hstep
      split at hstep
      · cases hstep
      · next hnot =>
          obtain ⟨caller, hcaller, hstep⟩ := Option.bind_eq_some_iff.1 hstep
          obtain rfl := Option.some.inj hstep
          exact h.atServer hcaller (Bool.not_eq_true _ ▸ hnot)
  | adopts conn =>
      rw [scriptNetStep] at hstep
      split at hstep
      · obtain rfl := Option.some.inj hstep
        exact h.of_links h.links rfl rfl (List.Sublist.refl _) h.traced
          (fun _ _ hname => hname) fun hext =>
            h.attributed.mono hext (List.Sublist.refl _) fun _ _ _ _ => .rfl
      · cases hstep
  | sendsOther text =>
      rw [scriptNetStep] at hstep
      split at hstep
      · cases hstep
      · next hnot =>
          split at hstep
          · obtain rfl := Option.some.inj hstep
            exact h
          · next conn _ =>
              obtain rfl := Option.some.inj hstep
              have hfor : SentFor s ⟨text, .other⟩ (.fromOs conn) :=
                .inl ⟨rfl, Bool.not_eq_true _ ▸ hnot⟩
              exact h.put hfor (fun c hc => by cases hc) fun r hr => by cases hr
  | atOs conn =>
      obtain ⟨⟨i, m⟩, hnext, hstep⟩ := Option.bind_eq_some_iff.1 hstep
      obtain rfl := Option.some.inj hstep
      exact h.atOs hnext
  | ends r e =>
      obtain ⟨p, hp, hstep⟩ := Option.bind_eq_some_iff.1 hstep
      split at hstep
      · next hmay =>
          obtain rfl := Option.some.inj hstep
          refine h.ends hp ?_ e
          cases e with
          | output stdout stderr =>
              exact Option.isNone_iff_eq_none.1 (Bool.and_eq_true_iff.1 hmay).1
          | error message => exact Option.isNone_iff_eq_none.1 hmay
      · cases hstep
  | atCaller conn =>
      obtain ⟨⟨i, m⟩, hnext, hstep⟩ := Option.bind_eq_some_iff.1 hstep
      obtain ⟨caller, hcaller, hstep⟩ := Option.bind_eq_some_iff.1 hstep
      obtain rfl := Option.some.inj hstep
      exact h.atCaller hnext hcaller
  | cut link =>
      obtain rfl := Option.some.inj hstep
      exact h.of_links (h.links.cut link) rfl rfl (List.Sublist.refl _) h.traced
        (fun _ _ hname => hname) fun hext =>
          h.attributed.mono hext (List.Sublist.refl _) fun _ _ _ _ => .rfl

/-! ## Whole runs -/

theorem ScriptNetRun.ok {es : List ScriptNetEvent} {s : ScriptNet}
    (h : ScriptNetRun cwd es s) : s.Ok cwd :=
  h.invariant (P := ScriptNet.Ok cwd) (fun hs hstep => hs.step hstep)
    (ScriptNet.ok_start cwd)

/-- A script is run for a call that has asked for it, once for each such call;
and the calls that are resolved have the texts of runs of their scripts, each
one of another run. -/
structure ScriptsOnce (cwd : JsString) (s : ScriptNet) : Prop where
  ran : ∀ (r : Nat) p, s.processes[r]? = some p →
    ∃ call, StartedFor cwd s p call
  once : ∀ (r r' : Nat) p p' call, s.processes[r]? = some p →
    s.processes[r']? = some p' → StartedFor cwd s p call →
    StartedFor cwd s p' call → r = r'
  resolved : ∃ run : Nat → Nat,
    (∀ c name stdout stderr, s.caller.calls c = .resolved name stdout stderr →
      ∃ p e, s.processes[run c]? = some p ∧ p.scriptFilename = name ∧
        p.ended = some e ∧ stdout = some (.str e.stdout) ∧
        stderr = some (.str e.stderr)) ∧
    ∀ c c', IsResolved s c → IsResolved s c' → run c = run c' → c = c'

theorem scripts_of_run {es : List ScriptNetEvent} {s : ScriptNet}
    (h : ScriptNetRun cwd es s) : ScriptsOnce cwd s := by
  have hok := h.ok
  refine ⟨hok.processes, fun r r' p p' call hp hp' hs hs' => ?_, ?_⟩
  · obtain ⟨_, _, conn, m, hsent, horigin⟩ := hs
    obtain ⟨_, _, conn', m', hsent', horigin'⟩ := hs'
    have hrequests : (s.links.sent.filterMap fun x => x.2.origin.call?).Nodup :=
      hok.requests
    have hrequest : p.request = p'.request :=
      Links.eq_of_filterMap hrequests hsent hsent'
        (congrArg ScriptOrigin.call? horigin)
        (congrArg ScriptOrigin.call? horigin')
    have hnodup := hok.links.nodup_taken.sublist hok.started
    rw [← List.filterMap_eq_map] at hnodup
    exact Links.eq_of_filterMap hnodup hp hp' rfl (congrArg some hrequest.symm)
  · obtain ⟨message, hmessage, hinj⟩ := hok.attributed
    -- The script whose result the message is.
    let run := fun c => ((s.links.sent[message c]?).bind
      fun x => x.2.origin.process?).getD 0
    have hrun : ∀ c name stdout stderr,
        s.caller.calls c = .resolved name stdout stderr →
        ∃ conn m, s.links.sent[message c]? = some (.fromOs conn, m) ∧
          m.origin.process? = some (run c) ∧
          ResolvedBy s name stdout stderr (message c) (run c) := by
      intro c name stdout stderr hc
      obtain ⟨_, r, hr⟩ := hmessage c name stdout stderr hc
      obtain ⟨conn, m, hsent, horigin⟩ := hr.1
      have heq : run c = r := by
        show ((s.links.sent[message c]?).bind _).getD 0 = r
        rw [hsent, Option.bind_some, horigin]
        rfl
      rw [heq]
      exact ⟨conn, m, hsent, congrArg ScriptOrigin.process? horigin, hr⟩
    refine ⟨run, fun c name stdout stderr hc => ?_, fun c c' hc hc' heq => ?_⟩
    · obtain ⟨_, _, _, _, hr⟩ := hrun c name stdout stderr hc
      exact hr.2
    · obtain ⟨name, stdout, stderr, hcall⟩ := hc
      obtain ⟨name', stdout', stderr', hcall'⟩ := hc'
      obtain ⟨_, m, hsent, horigin, _⟩ := hrun c _ _ _ hcall
      obtain ⟨_, m', hsent', horigin', _⟩ := hrun c' _ _ _ hcall'
      have hresults : (s.links.sent.filterMap
          fun x => x.2.origin.process?).Nodup := hok.results
      exact hinj c c' ⟨_, _, _, hcall⟩ ⟨_, _, _, hcall'⟩
        (Links.eq_of_filterMap hresults hsent hsent' horigin (heq ▸ horigin'))

/-- Two calls for one script, of which the second gets the first result. -/
def twoCalls : List ScriptNetEvent :=
  [.caller .connect, .adopts 0, .caller (.start 0 (js "wifi.js")),
    .caller (.start 1 (js "wifi.js")), .atOs 0, .atOs 0,
    .ends 0 (.output (js "first") []), .atCaller 0,
    .ends 1 (.error (js "failed")), .cut (.fromOs 0)]

theorem scripts_of_run_twoCalls : ∃ s,
    ScriptNetRun (js "/srv") twoCalls s ∧ ScriptsOnce (js "/srv") s ∧
      s.processes.map ScriptProcess.request = [0, 1] ∧
      IsResolved s 1 ∧ ¬ IsResolved s 0 := by
  have hran : (twoCalls.foldlM (scriptNetStep (js "/srv")) .start).map
      (fun s => (s.processes.map ScriptProcess.request,
        (s.caller.calls 0).isSettled, (s.caller.calls 1).isSettled,
        (s.caller.calls 1).isRejected)) = some ([0, 1], false, true, false) := by
    decide +kernel
  obtain ⟨s, hs, heq⟩ := Option.map_eq_some_iff.1 hran
  obtain ⟨hrequests, hrest⟩ := Prod.mk.inj heq
  obtain ⟨hfirst, hrest⟩ := Prod.mk.inj hrest
  obtain ⟨hsettled, hrejected⟩ := Prod.mk.inj hrest
  have hrun := run_iff_foldlM_option.1 hs
  refine ⟨s, hrun, scripts_of_run hrun, hrequests, ?_, ?_⟩
  · cases hcall : s.caller.calls 1 with
    | resolved name stdout stderr => exact ⟨name, stdout, stderr, hcall⟩
    | rejected name =>
        rw [hcall] at hrejected
        cases hrejected
    | idle =>
        rw [hcall] at hsettled
        cases hsettled
    | pending name socket =>
        rw [hcall] at hsettled
        cases hsettled
  · rintro ⟨name, stdout, stderr, hcall⟩
    rw [hcall] at hfirst
    cases hfirst

end IotHome.Os
