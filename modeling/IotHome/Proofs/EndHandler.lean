import IotHome.Lib.Outcome
import IotHome.Server.HttpServer

/-!
# What a wrapped controller comes to

The `catch` block of the wrapper answers as if nothing had been sent. When
something was, setting the status or sending the JSON throws again, now from
the handler, and no one hears of the first error but the promise that nobody
waits for. The same comes of an error that JSON cannot have. And a status code
that is none makes the wrapper's own `end` throw into that block, so that a
controller that has returned is answered for with an error. Otherwise the
handler does what it is for (`wellHandled_iff`).
-/

namespace IotHome.Server

open IotHome.Lib

/-- The promise is not rejected, the response has ended, and the error is what
is sent just if the controller threw before anything was. -/
structure WellHandled (node : NodeErrors) (express : Express)
    (production : Bool) (controller : Controller) : Prop where
  resolves :
    (HttpServerModule.endHandler node express production controller).rejected =
      false
  ended :
    (HttpServerModule.endHandler node express production
      controller).res.progress = .ended
  answers : ∀ e res, controller.exits node express = (.threw e, res) →
    res.progress = .nothing →
      (HttpServerModule.endHandler node express production
        controller).res.statusCode = 500 ∧
      ∃ text, (e.shown production).errorText = some text ∧
        (HttpServerModule.endHandler node express production
          controller).res.chunks = [.json text]
  onlyThen : ∀ text,
    .json text ∈ (HttpServerModule.endHandler node express production
      controller).res.chunks →
    ∃ e res, controller.exits node express = (.threw e, res) ∧
      res.progress = .nothing

/-- What the wrapper can deal with. -/
inductive Manageable (production : Bool) : Exit × Response → Prop where
  | returned {res : Response}
      (ends : res.progress ≠ .nothing ∨
        validStatusCode res.statusCode = true) :
      Manageable production (.returned, res)
  | threw {e : Thrown} {res : Response} (unsent : res.progress = .nothing)
      (written : (e.shown production).errorText.isSome) :
      Manageable production (.threw e, res)

/-! ## What a controller leaves -/

/-- Chunks of the controller, and none before the headers. -/
structure Plain (res : Response) : Prop where
  data : ∀ text, .json text ∉ res.chunks
  nothing : res.progress = .nothing → res.chunks = []

theorem implicitHeader_ok {node : NodeErrors} {res res' : Response}
    (h : res.implicitHeader node = .ok res') :
    res'.progress ≠ .nothing ∧ res'.chunks = res.chunks := by
  rw [Response.implicitHeader] at h
  split at h
  · next hsent =>
      injection h with h
      subst h
      exact ⟨of_decide_eq_true hsent, rfl⟩
  · rw [Response.writeHead] at h
    split at h
    · cases h
    · split at h
      · injection h with h
        subst h
        exact ⟨by simp, rfl⟩
      · cases h

theorem plain_write {node : NodeErrors} {res res' : Response}
    {bytes : List UInt8} (h : res.write node (.data bytes) = .ok res')
    (hres : Plain res) : Plain res' := by
  rw [Response.write] at h
  split at h
  · injection h with h
    rwa [← h]
  · obtain ⟨res₁, hheader, hres'⟩ := bind_eq_ok.1 h
    obtain ⟨hsent, hchunks⟩ := implicitHeader_ok hheader
    injection hres' with hres'
    subst hres'
    refine ⟨?_, fun hnothing => absurd hnothing hsent⟩
    intro text
    simp [hchunks, hres.data]

theorem plain_finish {node : NodeErrors} {res res' : Response}
    {bytes : Option (List UInt8)}
    (h : res.finish node (bytes.map .data) = .ok res') (hres : Plain res) :
    Plain res' := by
  rw [Response.finish] at h
  split at h
  · injection h with h
    rwa [← h]
  · obtain ⟨res₁, hheader, hres'⟩ := bind_eq_ok.1 h
    obtain ⟨_, hchunks⟩ := implicitHeader_ok hheader
    injection hres' with hres'
    subst hres'
    refine ⟨?_, fun h => by cases h⟩
    intro text
    simp [hchunks, hres.data]

theorem plain_apply {node : NodeErrors} {express : Express} {op : Op}
    {res res' : Response} (h : op.apply node express res = .ok res')
    (hres : Plain res) : Plain res' := by
  cases op with
  | status code =>
      rw [Op.apply] at h
      rw [express.status_sets h]
      exact ⟨hres.data, hres.nothing⟩
  | setHeader name value =>
      rw [Op.apply, Response.setHeader] at h
      split at h
      · cases h
      · injection h with h
        subst h
        exact ⟨hres.data, hres.nothing⟩
  | writeHead code =>
      rw [Op.apply, Response.writeHead] at h
      split at h
      · cases h
      · split at h
        · injection h with h
          subst h
          exact ⟨hres.data, fun h => by cases h⟩
        · cases h
  | write bytes => exact plain_write h hres
  | finish bytes => exact plain_finish h hres

theorem plain_exits (node : NodeErrors) (express : Express)
    (controller : Controller) : Plain (controller.exits node express).2 :=
  controller.run_invariant plain_apply
    ⟨fun _ => List.not_mem_nil, fun _ => rfl⟩

/-! ## The blocks of the handler -/

/-- What ends a response that is not ended for want of a chunk. -/
theorem finish_none {node : NodeErrors} {res : Response}
    (h : res.progress ≠ .nothing ∨ validStatusCode res.statusCode = true) :
    res.finish node none = .ok { res with progress := .ended } := by
  obtain ⟨statusCode, headers, progress, chunks⟩ := res
  cases progress with
  | nothing =>
      have hvalid : validStatusCode statusCode = true := by
        rcases h with h | h
        · exact absurd rfl h
        · exact h
      simp [Response.finish, Response.writableEnded, Response.implicitHeader,
        Response.headersSent, Response.writeHead, hvalid]
  | headers =>
      simp [Response.finish, Response.writableEnded, Response.implicitHeader,
        Response.headersSent]
  | ended => rfl

theorem finish_none_invalid {node : NodeErrors} {res : Response}
    (hsent : res.progress = .nothing)
    (hcode : validStatusCode res.statusCode = false) :
    res.finish node none = .error node.invalidStatusCode := by
  simp [Response.finish, Response.writableEnded, Response.implicitHeader,
    Response.headersSent, Response.writeHead, hsent, hcode]

theorem finallyBlock_ok {node : NodeErrors} {res : Response}
    (h : res.progress ≠ .nothing ∨ validStatusCode res.statusCode = true)
    (rejected : Bool) :
    finallyBlock node rejected res =
      ⟨rejected, { res with progress := .ended }⟩ := by
  rw [finallyBlock, finish_none h]

theorem finallyBlock_rejected (node : NodeErrors) (res : Response) :
    (finallyBlock node true res).rejected = true := by
  rw [finallyBlock]
  split
  · rfl
  · rfl

/-- The answer to an error. -/
def Response.errorAnswer (res : Response)
    (headers : OrderedMap String String) (text : JsString) : Response :=
  ⟨500, headers, .ended, res.chunks ++ [.json text]⟩

theorem errorText_unreadable {e : Thrown}
    (h : e.message = .unreadable ∨ e.type = .unreadable) :
    e.errorText = none := by
  rw [Thrown.errorText]
  rcases h with h | h
  · rw [h]
    rfl
  · rw [h]
    cases e.message.entry "message" with
    | none => rfl
    | some fields => rfl

theorem catchBlock_answers (express : Express) {production : Bool}
    {e : Thrown} {res : Response} {text : JsString}
    (hsent : res.progress = .nothing)
    (htext : (e.shown production).errorText = some text) :
    ∃ headers, catchBlock express production e res =
      (false, res.errorAnswer headers text) := by
  have hreadable : ¬ ((e.shown production).message = .unreadable ∨
      (e.shown production).type = .unreadable) := by
    intro hunreadable
    rw [errorText_unreadable hunreadable] at htext
    cases htext
  obtain ⟨res', hstatus⟩ := express.status_early hsent
    (show validStatusCode 500 = true by decide)
  have hres' := express.status_sets hstatus
  subst hres'
  obtain ⟨headers, hjson⟩ := express.json_early text
    (show ({ res with statusCode := 500 } : Response).progress = .nothing
      from hsent)
    (show validStatusCode 500 = true by decide)
  refine ⟨headers, ?_⟩
  rw [catchBlock, if_neg hreadable]
  simp only [hstatus, htext, hjson]
  rfl

theorem catchBlock_throws (express : Express) {production : Bool}
    {e : Thrown} {res : Response}
    (h : res.progress ≠ .nothing ∨
      (e.shown production).errorText = none) :
    (catchBlock express production e res).1 = true := by
  rw [catchBlock]
  split
  · rfl
  · cases hstatus : express.status res 500 with
    | error e => rfl
    | ok res' =>
        have hres' := express.status_sets hstatus
        subst hres'
        cases htext : (e.shown production).errorText with
        | none => rfl
        | some text =>
            have hsent : res.progress ≠ .nothing := h.resolve_right
              fun hnone => by rw [htext] at hnone; cases hnone
            obtain ⟨late, hjson⟩ := express.json_late text
              (show ({ res with statusCode := 500 } : Response).progress ≠
                .nothing from hsent)
            simp only [hjson]

/-! ## The handler -/

section

variable {node : NodeErrors} {express : Express} {production : Bool}
  {controller : Controller} {res : Response}

theorem endHandler_returned
    (h : controller.exits node express = (.returned, res))
    (hends : res.progress ≠ .nothing ∨
      validStatusCode res.statusCode = true) :
    HttpServerModule.endHandler node express production controller =
      ⟨false, { res with progress := .ended }⟩ := by
  rw [HttpServerModule.endHandler, tryBlock, h]
  by_cases hended : res.progress = .ended
  · simp only [Response.writableEnded, hended, decide_true, if_true]
    rw [finallyBlock_ok hends]
  · simp only [Response.writableEnded, hended, decide_false, finish_none hends,
      Bool.false_eq_true, if_false]
    rw [finallyBlock_ok (.inl (by simp))]

/-- The status code is none, and nothing was sent. -/
theorem endHandler_silent (h : controller.exits node express = (.returned, res))
    (hsent : res.progress = .nothing)
    (hcode : validStatusCode res.statusCode = false) :
    ∃ text, .json text ∈ (HttpServerModule.endHandler node express production
      controller).res.chunks := by
  obtain ⟨text, htext⟩ : ∃ text,
      (node.invalidStatusCode.thrown.shown production).errorText =
        some text := by
    cases production with
    | true => exact ⟨_, rfl⟩
    | false => exact ⟨_, rfl⟩
  obtain ⟨headers, hcatch⟩ := catchBlock_answers express hsent htext
  refine ⟨text, ?_⟩
  rw [HttpServerModule.endHandler, tryBlock, h]
  simp only [Response.writableEnded, hsent, finish_none_invalid hsent hcode,
    hcatch, reduceCtorEq, decide_false, Bool.false_eq_true, if_false]
  rw [finallyBlock_ok (.inl (by simp [Response.errorAnswer]))]
  simp [Response.errorAnswer]

theorem endHandler_threw {e : Thrown} {text : JsString}
    (h : controller.exits node express = (.threw e, res))
    (hsent : res.progress = .nothing)
    (htext : (e.shown production).errorText = some text) :
    ∃ headers,
      HttpServerModule.endHandler node express production controller =
        ⟨false, res.errorAnswer headers text⟩ := by
  obtain ⟨headers, hcatch⟩ := catchBlock_answers express hsent htext
  refine ⟨headers, ?_⟩
  rw [HttpServerModule.endHandler, tryBlock, h]
  simp only [hcatch]
  exact finallyBlock_ok (.inl (by simp [Response.errorAnswer])) false

theorem endHandler_rejected {e : Thrown}
    (h : controller.exits node express = (.threw e, res))
    (hfails : res.progress ≠ .nothing ∨
      (e.shown production).errorText = none) :
    (HttpServerModule.endHandler node express production controller).rejected =
      true := by
  rw [HttpServerModule.endHandler, tryBlock, h]
  have hthrows : (catchBlock express production e res).1 = true :=
    catchBlock_throws express hfails
  cases hcatch : catchBlock express production e res with
  | mk rejected res' =>
      rw [hcatch] at hthrows
      simp only [hcatch]
      rw [show rejected = true from hthrows]
      exact finallyBlock_rejected node res'

end

theorem wellHandled_of_manageable {node : NodeErrors} {express : Express}
    {production : Bool} {controller : Controller}
    (h : Manageable production (controller.exits node express)) :
    WellHandled node express production controller := by
  have hplain := plain_exits node express controller
  generalize hexits : controller.exits node express = exits at h hplain
  cases h with
  | @returned res ends =>
      have hhandled : HttpServerModule.endHandler node express production
          controller = _ := endHandler_returned hexits ends
      refine ⟨by rw [hhandled], by rw [hhandled], ?_, ?_⟩
      · intro e res' hthrew
        rw [hexits] at hthrew
        cases hthrew
      · intro text hmem
        rw [hhandled] at hmem
        exact absurd hmem (hplain.data text)
  | @threw e res unsent written =>
      obtain ⟨text, htext⟩ := Option.isSome_iff_exists.1 written
      obtain ⟨headers, hhandled⟩ :=
        endHandler_threw hexits unsent htext
      refine ⟨by rw [hhandled], by rw [hhandled]; rfl, ?_, ?_⟩
      · intro e' res' hthrew _
        rw [hexits] at hthrew
        cases hthrew
        rw [hhandled]
        refine ⟨rfl, text, htext, ?_⟩
        rw [Response.errorAnswer, hplain.nothing unsent, List.nil_append]
      · intro _ _
        exact ⟨e, res, hexits, unsent⟩

theorem manageable_of_wellHandled {node : NodeErrors} {express : Express}
    {production : Bool} {controller : Controller}
    (h : WellHandled node express production controller) :
    Manageable production (controller.exits node express) := by
  cases hexits : controller.exits node express with
  | mk exit res =>
      cases exit with
      | returned =>
          refine .returned ?_
          by_contra hends
          obtain ⟨hsent, hcode⟩ := not_or.1 hends
          obtain ⟨text, hmem⟩ := endHandler_silent hexits (not_not.1 hsent)
            (Bool.eq_false_iff.2 hcode)
          obtain ⟨e, res', hthrew, _⟩ := h.onlyThen text hmem
          rw [hexits] at hthrew
          cases hthrew
      | threw e =>
          by_cases hfails : res.progress ≠ .nothing ∨
              (e.shown production).errorText = none
          · have hresolves := h.resolves
            rw [endHandler_rejected hexits hfails] at hresolves
            cases hresolves
          · obtain ⟨hsent, htext⟩ := not_or.1 hfails
            exact .threw (not_not.1 hsent)
              (Option.isSome_iff_ne_none.2 htext)

end IotHome.Server
