import IotHome.Cmd.Middleware

/-!
# Requests that the command explorer answers

Of the two handlers, at most one ends the response, and it does so once: a
path cannot be that of the commands and below it. But there are paths that
neither takes, and around the call of the command nothing is caught: not the
URL, not the arguments, not the page that is read, not the text that is made
of the result. `answers_iff` is all there is to a request that is answered.
-/

namespace IotHome.Cmd

open IotHome.Lib

variable {ρ : Type} (site : Site ρ)

/-- On a stack that is deep enough, the response is ended once and the promise
does not reject. -/
def Settles (reply : Nat → Reply) : Prop :=
  ∃ depth₀, ∀ depth, depth₀ ≤ depth → (reply depth).EndsOnce

/-- The path is one of a page, and no file is there that can be opened but not
read. -/
def PageAnswers (pathname : JsString) : Prop :=
  isBelowCmd pathname = true ∧ page site pathname ≠ .unreadable

variable {site}

/-! ## Replies -/

@[simp] theorem endsOnce_endWith (body : Body) :
    (Reply.endWith body).EndsOnce := ⟨rfl, rfl⟩

@[simp] theorem not_endsOnce_silent : ¬ Reply.silent.EndsOnce := by
  simp [Reply.EndsOnce, Reply.silent]

@[simp] theorem not_endsOnce_rejected : ¬ Reply.rejected.EndsOnce := by
  simp [Reply.EndsOnce, Reply.rejected]

@[simp] theorem silent_andThen (reply : Reply) :
    Reply.silent.andThen reply = reply := by
  simp [Reply.andThen, Reply.silent]

@[simp] theorem andThen_silent (reply : Reply) :
    reply.andThen .silent = reply := by
  rw [Reply.andThen]
  split_ifs with h
  · rfl
  · cases reply
    simpa [Reply.silent] using h

@[simp] theorem rejected_andThen (reply : Reply) :
    Reply.rejected.andThen reply = .rejected := rfl

theorem settles_const (reply : Reply) :
    (Settles fun _ => reply) ↔ reply.EndsOnce :=
  ⟨fun ⟨depth₀, h⟩ => h depth₀ (le_refl _), fun h => ⟨0, fun _ _ => h⟩⟩

/-! ## The page -/

theorem serveStaticCmdUi_other {target : JsString} {url : Url}
    (h : site.parseUrl target = some url)
    (hpath : isBelowCmd url.pathname = false) :
    serveStaticCmdUi site target = .silent := by
  rw [serveStaticCmdUi, h]
  simp [hpath]

theorem serveStaticCmdUi_endsOnce_iff {target : JsString} {url : Url}
    (h : site.parseUrl target = some url)
    (hpath : isBelowCmd url.pathname = true) :
    (serveStaticCmdUi site target).EndsOnce ↔
      page site url.pathname ≠ .unreadable := by
  rw [serveStaticCmdUi, h]
  simp only [hpath, if_true]
  cases page site url.pathname <;> simp

theorem length_ended_serveStaticCmdUi (target : JsString) :
    (serveStaticCmdUi site target).ended.length ≤ 1 := by
  rw [serveStaticCmdUi]
  cases site.parseUrl target with
  | none => simp [Reply.rejected]
  | some url =>
      simp only []
      split_ifs
      · cases page site url.pathname <;> simp [Reply.endWith, Reply.rejected]
      · simp [Reply.silent]

/-! ## The two handlers -/

variable [DecidableEq ρ]

variable (site) in
/-- The middleware answers the request. -/
def Answers (url : Option JsString) : Prop :=
  Settles fun depth => cmdExpressMiddleware site depth url

variable (site) in
/-- The result has a text, or the error can be read. -/
def OutcomeAnswers : Outcome ρ → Prop
  | .returned result => Serializable site.heap result
  | .threw err => err.isSome

variable (site) in
/-- The path is that of the commands, the arguments are JSON, and the command
comes to something that can be written. -/
def CommandAnswers (url : Url) : Prop :=
  url.pathname = cmdUrlPath ∧ ∃ args,
    Json.parse (url.args.getD (js "[]")) = some args ∧
      OutcomeAnswers site (site.run args)

theorem isBelowCmd_cmdUrlPath : isBelowCmd cmdUrlPath = false := by decide

theorem cmdCtrl_other {depth : Nat} {target : JsString} {url : Url}
    {errVerb : Option ErrVerb} (h : site.parseUrl target = some url)
    (hpath : url.pathname ≠ cmdUrlPath) :
    cmdCtrl site depth target errVerb = .silent := by
  rw [cmdCtrl, h]
  exact if_pos hpath

theorem cmdExpressMiddleware_page {depth : Nat} {url : Option JsString}
    {parsed : Url} (h : site.parseUrl (url.getD []) = some parsed)
    (hpath : isBelowCmd parsed.pathname = true) :
    cmdExpressMiddleware site depth url =
      serveStaticCmdUi site (url.getD []) := by
  have hother : parsed.pathname ≠ cmdUrlPath := by
    intro heq
    rw [heq, isBelowCmd_cmdUrlPath] at hpath
    cases hpath
  rw [cmdExpressMiddleware, cmdCtrl_other h hother, andThen_silent]

theorem cmdExpressMiddleware_command {depth : Nat} {url : Option JsString}
    {parsed : Url} (h : site.parseUrl (url.getD []) = some parsed)
    (hpath : isBelowCmd parsed.pathname = false) :
    cmdExpressMiddleware site depth url =
      cmdCtrl site depth (url.getD []) none := by
  rw [cmdExpressMiddleware, serveStaticCmdUi_other h hpath, silent_andThen]

/-- A path that is neither that of the commands nor below it is left without
an answer. -/
theorem cmdExpressMiddleware_elsewhere {depth : Nat} {url : Option JsString}
    {parsed : Url} (h : site.parseUrl (url.getD []) = some parsed)
    (hbelow : isBelowCmd parsed.pathname = false)
    (hpath : parsed.pathname ≠ cmdUrlPath) :
    cmdExpressMiddleware site depth url = .silent := by
  rw [cmdExpressMiddleware_command h hbelow, cmdCtrl_other h hpath]

/-! ## The command -/

theorem endWithResult_endsOnce_iff (depth : Nat) (result : Read ρ) :
    (endWithResult site depth result).EndsOnce ↔
      (serializeObject site.heap depth result).isSome = true := by
  rw [endWithResult]
  cases serializeObject site.heap depth result <;> simp

theorem serializeObject_undefined (depth : Nat) :
    serializeObject site.heap (depth + 1) .undefined = some none := rfl

theorem replyToOutcome_iff (outcome : Outcome ρ) :
    (Settles fun depth => replyToOutcome site depth none outcome) ↔
      OutcomeAnswers site outcome := by
  cases outcome with
  | returned result =>
      simp only [Settles, replyToOutcome, endWithResult_endsOnce_iff]
      exact serializeObject_iff result
  | threw err =>
      cases err with
      | none =>
          simp only [replyToOutcome]
          simp [settles_const, OutcomeAnswers]
      | some err =>
          refine ⟨fun _ => rfl, fun _ => ⟨1, fun depth hdepth => ?_⟩⟩
          obtain ⟨depth, rfl⟩ := Nat.exists_eq_add_of_le' hdepth
          show ((reportError none err).andThen
            (endWithResult site (depth + 1) .undefined)).EndsOnce
          rw [reportError, silent_andThen, endWithResult_endsOnce_iff,
            serializeObject_undefined]
          rfl

theorem cmdCtrl_iff {target : JsString} {url : Url}
    (h : site.parseUrl target = some url) :
    (Settles fun depth => cmdCtrl site depth target none) ↔
      CommandAnswers site url := by
  by_cases hpath : url.pathname = cmdUrlPath
  · cases hargs : Json.parse (url.args.getD (js "[]")) with
    | none =>
        have hreply : ∀ depth, cmdCtrl site depth target none = .rejected := by
          intro depth
          simp [cmdCtrl, h, hpath, hargs]
        simp [hreply, settles_const, CommandAnswers, hargs]
    | some args =>
        have hreply : ∀ depth, cmdCtrl site depth target none =
            replyToOutcome site depth none (site.run args) := by
          intro depth
          simp [cmdCtrl, h, hpath, hargs]
        simp [hreply, replyToOutcome_iff, CommandAnswers, hpath, hargs]
  · have hreply : ∀ depth, cmdCtrl site depth target none = .silent :=
      fun _ => cmdCtrl_other h hpath
    simp [hreply, settles_const, CommandAnswers, hpath]

/-! ## The whole -/

theorem length_ended_endWithResult (depth : Nat) (result : Read ρ) :
    (endWithResult site depth result).ended.length ≤ 1 := by
  rw [endWithResult]
  cases serializeObject site.heap depth result <;>
    simp [Reply.endWith, Reply.rejected]

theorem length_ended_cmdCtrl (depth : Nat) (target : JsString) :
    (cmdCtrl site depth target none).ended.length ≤ 1 := by
  rw [cmdCtrl]
  cases site.parseUrl target with
  | none => simp [Reply.rejected]
  | some url =>
      simp only []
      split_ifs
      · simp [Reply.silent]
      · cases Json.parse (url.args.getD (js "[]")) with
        | none => simp [Reply.rejected]
        | some args =>
            cases hrun : site.run args with
            | returned result =>
                simpa [hrun, replyToOutcome] using
                  length_ended_endWithResult depth result
            | threw err =>
                cases err with
                | none => simp [hrun, replyToOutcome, Reply.rejected]
                | some err =>
                    simpa [hrun, replyToOutcome, reportError] using
                      length_ended_endWithResult depth .undefined

/-- Whatever happens, the middleware does not end a response twice. -/
theorem length_ended_le_one (depth : Nat) (url : Option JsString) :
    (cmdExpressMiddleware site depth url).ended.length ≤ 1 := by
  cases hparse : site.parseUrl (url.getD []) with
  | none =>
      have hreply : cmdExpressMiddleware site depth url = .rejected := by
        simp [cmdExpressMiddleware, serveStaticCmdUi, hparse]
      simp [hreply, Reply.rejected]
  | some parsed =>
      cases hpath : isBelowCmd parsed.pathname with
      | true =>
          rw [cmdExpressMiddleware_page hparse hpath]
          exact length_ended_serveStaticCmdUi _
      | false =>
          rw [cmdExpressMiddleware_command hparse hpath]
          exact length_ended_cmdCtrl depth _

/-- The response of a request is ended exactly once, without a rejection,
exactly if its URL can be read and it is one for a page that is not unreadable,
or one for a command, with arguments that are JSON, that comes to something
that can be written. -/
theorem answers_iff (url : Option JsString) :
    Answers site url ↔
      ∃ parsed, site.parseUrl (url.getD []) = some parsed ∧
        (PageAnswers site parsed.pathname ∨ CommandAnswers site parsed) := by
  rw [Answers]
  cases hparse : site.parseUrl (url.getD []) with
  | none =>
      have hreply : ∀ depth,
          cmdExpressMiddleware site depth url = .rejected := by
        intro depth
        simp [cmdExpressMiddleware, serveStaticCmdUi, hparse]
      simp [hreply, settles_const]
  | some parsed =>
      simp only [Option.some.injEq, exists_eq_left']
      cases hpath : isBelowCmd parsed.pathname with
      | true =>
          have hother : ¬ CommandAnswers site parsed := by
            intro hcommand
            rw [hcommand.1, isBelowCmd_cmdUrlPath] at hpath
            cases hpath
          simp only [cmdExpressMiddleware_page hparse hpath, settles_const,
            serveStaticCmdUi_endsOnce_iff hparse hpath]
          simp [PageAnswers, hpath, hother]
      | false =>
          simp only [cmdExpressMiddleware_command hparse hpath,
            cmdCtrl_iff hparse]
          simp [PageAnswers, hpath]

/-! ## A request that is not answered -/

/-- A site without pages, whose commands return nothing, as far as it is asked
for paths. -/
def emptySite : Site Nat where
  parseUrl target := some ⟨target, none⟩
  fileStaticPath := js "/"
  openFile _ := .absent
  run _ := .returned .undefined
  heap :=
    ⟨fun _ => ⟨.undefined, .undefined, .undefined, .plain []⟩, fun _ => none⟩

theorem not_answers : ¬ ∀ (site : Site Nat) (url : Option JsString),
    Answers site url := by
  intro h
  have hsilent : ∀ depth, cmdExpressMiddleware emptySite depth
      (some (js "/x")) = .silent := fun _ =>
    cmdExpressMiddleware_elsewhere rfl (by decide) (by decide)
  have hanswers := h emptySite (some (js "/x"))
  simp only [Answers, hsilent, settles_const] at hanswers
  exact not_endsOnce_silent hanswers

end IotHome.Cmd
