import IotHome.Lib.JsonNul
import IotHome.Lib.Runs
import IotHome.Proofs.ApiResponse
import IotHome.Proofs.ResponseLength
import IotHome.Server.PinSystem

/-!
# What the server has of the pins

Whatever overlaps, what is recorded of the pins is how they all were at one
time: the time at which the board put together the response that the answer
was sent from, which is no earlier than that at which it had carried out the
call's own request. The pins themselves are as they were last written.

A response is how the pins are once its commands are carried out
(`apiCgiHandler_shows`), and of one that does not fit into the buffer of the
tag nothing is recorded, as a NUL has been sent in it (`bodyShows_sentBody`).
-/

namespace IotHome.Server

open IotHome.Lib
open IotHome.Firmware

/-! ## The pins at a time -/

/-- The level of a pin after some writes. -/
def levelAt (level : Nat → Bool) (puts : List (Nat × Bool)) (pin : Nat) :
    Bool := (lastFor pin puts).getD (level pin)

theorem levelAt_gpioPut {level : Nat → Bool} {g : Gpio}
    (h : ∀ p, g.level p = levelAt level g.puts p) (pin : Nat) (value : Bool)
    (p : Nat) : (g.gpioPut pin value).level p =
      levelAt level (g.gpioPut pin value).puts p := by
  show (if p = pin then value else g.level p) =
    (lastFor p (g.puts ++ [(pin, value)])).getD (level p)
  rw [lastFor_append, lastFor_cons, lastFor_nil, Option.none_or]
  by_cases hp : p = pin
  · simp [hp]
  · simp [hp, Ne.symm hp, h p, levelAt]

/-- The pins are as they were written, and are outputs if they were. -/
structure Written (level : Nat → Bool) (g : Gpio) : Prop where
  level : ∀ p, g.level p = levelAt level g.puts p
  out : ∀ w ∈ g.puts, g.out w.1 = true
  leds : ∀ p, LED1 ≤ p → p ≤ LED4 → g.out p = true

theorem written_gpioPut {level : Nat → Bool} {g : Gpio}
    (h : Written level g) {pin : Nat} (hout : g.out pin = true)
    (value : Bool) : Written level (g.gpioPut pin value) where
  level := levelAt_gpioPut h.level pin value
  out w hw := by
    rcases List.mem_append.1 hw with hw | hw
    · exact h.out w hw
    · obtain rfl := List.mem_singleton.1 hw
      exact hout
  leds := h.leds

theorem written_gpioSetDir {level : Nat → Bool} {g : Gpio}
    (h : Written level g) (pin : Nat) :
    Written level (g.gpioSetDir pin true) where
  level := h.level
  out w hw := by
    show (if w.1 = pin then true else g.out w.1) = true
    simp [h.out w hw]
  leds p hlow hhigh := by
    show (if p = pin then true else g.out p) = true
    simp [h.leds p hlow hhigh]

theorem written_drive {level : Nat → Bool} {g : Gpio} (h : Written level g)
    (c : Command) : Written level (drive g c) := by
  have hdir := written_gpioSetDir h c.1
  rw [drive, gpio]
  split
  · refine written_gpioPut hdir ?_ _
    show (if c.1 = c.1 then true else g.out c.1) = true
    simp
  · exact hdir

/-- `cgi_init` writes its pins while it makes them outputs. -/
theorem written_cgiInit (level out : Nat → Bool) :
    Written level (cgiInit ⟨level, out, []⟩) where
  level := by
    rw [cgiInit]
    refine List.foldlRecOn (motive := fun g : Gpio =>
      ∀ p, g.level p = levelAt level g.puts p) _ _ (fun _ => rfl) ?_
    intro g hg i _
    exact levelAt_gpioPut
      (g := (g.gpioInit i).gpioSetDir i true)
      (levelAt_gpioPut (g := g.gpioSetDir i false) hg i false) i false
  out := by
    simp [cgiInit, LED1, LED9, List.range', Gpio.gpioInit, Gpio.gpioSetDir,
      Gpio.gpioPut]
  leds p hlow hhigh := by
    simp only [LED1, LED4] at hlow hhigh
    simp [cgiInit, LED1, LED9, List.range', Gpio.gpioInit, Gpio.gpioSetDir,
      Gpio.gpioPut]
    omega

theorem written_foldl_drive {level : Nat → Bool} (cs : List Command)
    {g : Gpio} (h : Written level g) : Written level (cs.foldl drive g) :=
  List.foldlRecOn (motive := Written level) _ _ h
    fun _ hg c _ => written_drive hg c

/-- Later writes do not change what was. -/
theorem take_puts_append (puts more : List (Nat × Bool)) {t : Nat}
    (h : t ≤ puts.length) : (puts ++ more).take t = puts.take t :=
  List.take_append_of_le_length h

/-- A pin that is not written keeps its level. -/
theorem levelAt_of_unwritten {level : Nat → Bool} {puts : List (Nat × Bool)}
    {t pin : Nat} (h : ∀ w ∈ puts.drop t, w.1 ≠ pin) :
    levelAt level puts pin = levelAt level (puts.take t) pin := by
  have hnone : lastFor pin (puts.drop t) = none := by
    rw [lastFor_eq_none]
    exact h
  conv_lhs => rw [← List.take_append_drop t puts]
  rw [levelAt, levelAt, lastFor_append, hnone, Option.none_or]

/-! ## What a request does -/

/-- What holds of the pins, and is only added to. -/
structure GoesOn (level : Nat → Bool) (g g' : Gpio) : Prop where
  written : Written level g'
  puts : g.puts <+: g'.puts

theorem GoesOn.refl {level : Nat → Bool} {g : Gpio} (h : Written level g) :
    GoesOn level g g := ⟨h, List.prefix_rfl⟩

theorem GoesOn.gpioPut {level : Nat → Bool} {g g' : Gpio}
    (h : GoesOn level g g') {led : Nat} (hlow : LED1 ≤ led)
    (hhigh : led ≤ LED4) (value : Bool) :
    GoesOn level g (g'.gpioPut led value) :=
  ⟨written_gpioPut h.written (h.written.leds led hlow hhigh) value,
    h.puts.trans (List.prefix_append _ _)⟩

theorem GoesOn.drive {level : Nat → Bool} {g : Gpio} (h : Written level g)
    (cs : List Command) : GoesOn level g (cs.foldl drive g) := by
  refine ⟨written_foldl_drive cs h, ?_⟩
  rw [foldl_drive_puts]
  exact List.prefix_append _ _

theorem ledParam_cases {name value : CharPtr} {g g' : Gpio}
    (h : ledParam name value g = .ok g') :
    g' = g ∨ ∃ led, LED1 ≤ led ∧ led ≤ LED4 ∧ g' = ledOn g led := by
  rw [ledParam, bind_eq_ok] at h
  obtain ⟨named, _, h⟩ := h
  have hvalue : ∀ {lit : String} {led : Nat} {rest : Except Fault Gpio},
      LED1 ≤ led ∧ led ≤ LED4 →
      (do if ← strcmpEq value lit then pure (ledOn g led) else rest) =
        .ok g' →
      (rest = .ok g' →
        g' = g ∨ ∃ led, LED1 ≤ led ∧ led ≤ LED4 ∧ g' = ledOn g led) →
      g' = g ∨ ∃ led, LED1 ≤ led ∧ led ≤ LED4 ∧ g' = ledOn g led := by
    intro lit led rest hled hstep hrest
    rw [bind_eq_ok] at hstep
    obtain ⟨isLit, _, hstep⟩ := hstep
    split at hstep
    · exact .inr ⟨led, hled.1, hled.2, (Except.ok.inj hstep).symm⟩
    · exact hrest hstep
  split at h
  · refine hvalue (by decide) h fun h => ?_
    refine hvalue (by decide) h fun h => ?_
    refine hvalue (by decide) h fun h => ?_
    exact hvalue (by decide) h fun h => .inl (Except.ok.inj h).symm
  · exact .inl (Except.ok.inj h).symm

theorem GoesOn.ledLoop {level : Nat → Bool} {g g' g'' : Gpio}
    {pcParam pcValue : Nat → CharPtr} {left i : Nat}
    (h : GoesOn level g g')
    (hloop : ledLoop pcParam pcValue left i g' = .ok g'') :
    GoesOn level g g'' := by
  induction left generalizing i g' with
  | zero =>
      obtain rfl := Except.ok.inj hloop
      exact h
  | succ left ih =>
      rw [Firmware.ledLoop, bind_eq_ok] at hloop
      obtain ⟨g₁, hparam, hloop⟩ := hloop
      rcases ledParam_cases hparam with rfl | ⟨led, hlow, hhigh, rfl⟩
      · exact ih h hloop
      · exact ih (h.gpioPut hlow hhigh true) hloop

theorem GoesOn.cgiHandler {level : Nat → Bool} {g : Gpio}
    {page : String} {r : Request} {res : Gpio × String}
    (h : Written level g) (hrun : cgiHandler page r g = .ok res) :
    GoesOn level g res.1 := by
  rw [Firmware.cgiHandler, bind_eq_ok] at hrun
  obtain ⟨g', hloop, hres⟩ := hrun
  obtain rfl := Except.ok.inj hres
  refine GoesOn.ledLoop ?_ hloop
  have hoff : ∀ {g' : Gpio}, GoesOn level g g' → ∀ led, LED1 ≤ led →
      led ≤ LED4 → GoesOn level g (ledOff g' led) :=
    fun h led hlow hhigh => h.gpioPut hlow hhigh false
  exact hoff (hoff (hoff (hoff (.refl h) LED1 (by decide) (by decide))
    LED2 (by decide) (by decide)) LED3 (by decide) (by decide))
    LED4 (by decide) (by decide)

/-! ## What a response shows -/

/-- The response is one that shows the pins at a time. -/
def ResponseShows (level : Nat → Bool) (puts : List (Nat × Bool)) (t : Nat)
    (response : String) : Prop :=
  ∃ g rs, response = responseText g rs ∧
    (rs.map Prod.fst).Nodup ∧ ∀ c ∈ rs, SmallNumbers c ∧ 1 ≤ c.1 ∧
      c.1 ≤ 9 ∧ levelAfter g c = levelAt level (puts.take t) c.1

theorem smallNumbers_of_bounds {c : Command} (hpin : c.1 < 10)
    (hlow : -2147483648 ≤ c.2) (hhigh : c.2 ≤ 2147483647) :
    SmallNumbers c := by
  have hpow : (2147483648 : Nat) < 10 ^ 21 := by decide
  constructor
  · show ((c.1 : Nat) : Int).natAbs < 10 ^ 21
    omega
  · omega

/-- A request for `/api` drives some pins, and its response shows how they
are then. -/
theorem apiCgiHandler_shows {level : Nat → Bool} {b b' : Board} {r : Request}
    (h : Written level b.gpio) (hrun : apiCgiHandler b r = .ok b') :
    GoesOn level b.gpio b'.gpio ∧
      ResponseShows level b'.gpio.puts b'.gpio.puts.length b'.response := by
  rw [apiCgiHandler, bind_eq_ok] at hrun
  obtain ⟨⟨g, res⟩, hrun, heq⟩ := hrun
  obtain rfl := Except.ok.inj heq
  rw [handleRequestParams_eq, map_eq_ok] at hrun
  obtain ⟨cs, hcs, hres⟩ := hrun
  obtain ⟨rfl, rfl⟩ := Prod.mk.inj hres
  have hnd := nodup_requested cs
  have hgoes := GoesOn.drive h (requested cs)
  refine ⟨hgoes, b.gpio, requested cs, rfl, hnd, fun c hc => ?_⟩
  have hbounds := forall_commandsFrom (fun i d hd => commandAt_bounds hd)
    r.iNumParams 0 cs hcs c (mem_requested hc)
  have hpin : 1 ≤ c.1 ∧ c.1 ≤ 9 := by
    rw [requested, List.mem_filterMap] at hc
    obtain ⟨p, hp, hc⟩ := hc
    obtain ⟨v, _, rfl⟩ := Option.map_eq_some_iff.1 hc
    exact mem_apiPins.1 hp
  refine ⟨smallNumbers_of_bounds hbounds.1 hbounds.2.1 hbounds.2.2, hpin.1,
    hpin.2, ?_⟩
  rw [List.take_length, ← hgoes.written.level c.1, foldl_drive_level _ hnd,
    lastFor_of_mem hnd hc]

theorem ResponseShows.later {level : Nat → Bool}
    {puts puts' : List (Nat × Bool)} {t : Nat} {response : String}
    (h : ResponseShows level puts t response) (ht : t ≤ puts.length)
    (hputs : puts <+: puts') : ResponseShows level puts' t response := by
  obtain ⟨more, rfl⟩ := hputs
  rw [ResponseShows, take_puts_append puts more ht]
  exact h

/-! ## What is recorded of an answer -/

/-- The record shows how its pins are at a time. -/
def RecordShows (level : Nat → Bool) (puts : List (Nat × Bool)) (t : Nat)
    (m : PinStates) : Prop :=
  ∀ k state, m.get k = some state → ∃ pin, 1 ≤ pin ∧ pin ≤ 9 ∧
    k = pinKey pin ∧
    getProp? (some state) "pin" = some (.num (Dec.ofInt pin)) ∧
    getProp? (some state) "sta" =
      some (.num (Dec.ofInt (levelAt level (puts.take t) pin).toNat))

theorem RecordShows.later {level : Nat → Bool}
    {puts puts' : List (Nat × Bool)} {t : Nat} {m : PinStates}
    (h : RecordShows level puts t m) (ht : t ≤ puts.length)
    (hputs : puts <+: puts') : RecordShows level puts' t m := by
  obtain ⟨more, rfl⟩ := hputs
  rw [RecordShows, take_puts_append puts more ht]
  exact h

/-- Whatever is recorded of a text shows how the pins are at a time. -/
def BodyShows (level : Nat → Bool) (puts : List (Nat × Bool)) (t : Nat)
    (body : JsString) : Prop :=
  ∀ m, recordStates (Json.parse body) = .ok (some m) →
    RecordShows level puts t m

theorem BodyShows.later {level : Nat → Bool}
    {puts puts' : List (Nat × Bool)} {t : Nat} {body : JsString}
    (h : BodyShows level puts t body) (ht : t ≤ puts.length)
    (hputs : puts <+: puts') : BodyShows level puts' t body :=
  fun m hm => (h m hm).later ht hputs

theorem bodyShows_none {level : Nat → Bool} {puts : List (Nat × Bool)}
    {t : Nat} {body : JsString} (h : Json.parse body = none) :
    BodyShows level puts t body := by
  intro m hm
  rw [h, recordStates] at hm
  · cases hm
  · exact fun states heq => by cases heq

theorem bodyShows_response {level : Nat → Bool} {puts : List (Nat × Bool)}
    {t : Nat} {response : String}
    (h : ResponseShows level puts t response) :
    BodyShows level puts t (js response) := by
  obtain ⟨g, rs, rfl, hnd, hrs⟩ := h
  obtain ⟨m₀, hm₀, hentries⟩ :=
    recordStates_response (g := g) (fun c hc => (hrs c hc).1) hnd
  intro m hm k state hget
  obtain rfl := Option.some.inj (Except.ok.inj (hm₀.symm.trans hm))
  have hmem := mem_of_lastFor hget
  rw [hentries] at hmem
  obtain ⟨c, hc, heq⟩ := List.mem_map.1 hmem
  obtain ⟨rfl, rfl⟩ := Prod.mk.inj heq
  obtain ⟨_, hlow, hhigh, hlevel⟩ := hrs c hc
  refine ⟨c.1, hlow, hhigh, rfl, rfl, ?_⟩
  rw [getProp_sta, hlevel]

/-- What is sent of a response shows what it shows, or is nothing to be
recorded. -/
theorem bodyShows_sentBody {level : Nat → Bool} {puts : List (Nat × Bool)}
    {t L : Nat} {b : Board} {inserted : String} {printed : Nat}
    (h : ResponseShows level puts t b.response)
    (hssi : ssiHandler L b = .ok (inserted, printed)) (behind : JsString) :
    BodyShows level puts t (sentBody L inserted printed behind) := by
  rw [ssiHandler, snprintf] at hssi
  split at hssi
  · cases hssi
  · obtain ⟨rfl, rfl⟩ := Prod.mk.inj (Except.ok.inj hssi)
    rw [sentBody]
    split
    · next hfits =>
        rw [← String.length_toList] at hfits
        rw [List.take_of_length_le (by omega), String.ofList_toList]
        exact bodyShows_response h
    · exact bodyShows_none (Json.parse_nul (by simp))

/-! ## What holds in every state -/

namespace PinSystem

structure Ok (level : Nat → Bool) (device : Device) (s : PinSystem) :
    Prop where
  written : Written level s.board.gpio
  shown_le : s.shown ≤ s.now
  response : ResponseShows level s.board.gpio.puts s.shown s.board.response
  computed : ∀ c own, s.conns c = .computed own → own ≤ s.shown
  answered : ∀ c own t body, s.conns c = .answered own t body → own ≤ t ∧
    t ≤ s.now ∧ BodyShows level s.board.gpio.puts t body
  held : ∀ t, s.held = some t → t ≤ s.now ∧
    ∃ m, s.device.devPinStates = some m ∧
      RecordShows level s.board.gpio.puts t m
  unheld : s.held = none →
    s.device.devPinStates = device.devPinStates

section

variable {level : Nat → Bool} {device : Device} {s s' : PinSystem} {L : Nat}

theorem ok_start (device : Device) (level out : Nat → Bool) :
    (start device level out).Ok level device where
  written := written_cgiInit level out
  shown_le := Nat.zero_le _
  response := ⟨⟨level, out, []⟩, [], rfl, List.nodup_nil, by simp⟩
  computed _ _ h := by cases h
  answered _ _ _ _ h := by cases h
  held _ h := by cases h
  unheld _ := rfl

theorem setConn_conns (s : PinSystem) (call c : Nat) (conn : PinConn) :
    (s.setConn call conn).conns c =
      if c = call then conn else s.conns c := rfl

theorem Ok.setConn (h : s.Ok level device) {call : Nat} {conn : PinConn}
    (hcomputed : ∀ own, conn = .computed own → own ≤ s.shown)
    (hanswered : ∀ own t body, conn = .answered own t body → own ≤ t ∧
      t ≤ s.now ∧ BodyShows level s.board.gpio.puts t body) :
    (s.setConn call conn).Ok level device where
  written := h.written
  shown_le := h.shown_le
  response := h.response
  computed c own hc := by
    rw [setConn_conns] at hc
    split at hc
    · exact hcomputed own hc
    · exact h.computed c own hc
  answered c own t body hc := by
    rw [setConn_conns] at hc
    split at hc
    · exact hanswered own t body hc
    · exact h.answered c own t body hc
  held := h.held
  unheld := h.unheld

theorem Ok.setWaiting (h : s.Ok level device) (call : Nat) (waits : Bool) :
    (s.setWaiting call waits).Ok level device :=
  ⟨h.written, h.shown_le, h.response, h.computed, h.answered, h.held,
    h.unheld⟩

/-- The pins are written, and what was shown of an earlier time stays. -/
theorem Ok.goesOn (h : s.Ok level device) {b : Board} {shown : Nat}
    (hgpio : GoesOn level s.board.gpio b.gpio) (hle : s.shown ≤ shown)
    (hnow : shown ≤ b.gpio.puts.length)
    (hresponse : ResponseShows level b.gpio.puts shown b.response) :
    ({ s with board := b, shown } : PinSystem).Ok level device where
  written := hgpio.written
  shown_le := hnow
  response := hresponse
  computed c own hc := Nat.le_trans (h.computed c own hc) hle
  answered c own t body hc := by
    obtain ⟨hown, ht, hbody⟩ := h.answered c own t body hc
    exact ⟨hown, Nat.le_trans ht hgpio.puts.length_le,
      hbody.later ht hgpio.puts⟩
  held t ht := by
    obtain ⟨hle, m, hm, hshows⟩ := h.held t ht
    exact ⟨Nat.le_trans hle hgpio.puts.length_le, m, hm,
      hshows.later hle hgpio.puts⟩
  unheld := h.unheld

theorem Ok.responded (h : s.Ok level device) {b : Board} {r : Request}
    (hrun : apiCgiHandler s.board r = .ok b) :
    (s.responded b).Ok level device := by
  obtain ⟨hgoes, hshows⟩ := apiCgiHandler_shows h.written hrun
  exact h.goesOn hgoes (Nat.le_trans h.shown_le hgoes.puts.length_le)
    (Nat.le_refl _) hshows

theorem Ok.other (h : s.Ok level device) {page : CgiPage} {r : Request}
    (hrun : s.other page r = .ok s') : s'.Ok level device := by
  have hled : ∀ {page : String} {res : Gpio × String},
      cgiHandler page r s.board.gpio = .ok res →
      ({ s with board := { s.board with gpio := res.1 } } : PinSystem).Ok
        level device := by
    intro page res hres
    have hgoes := GoesOn.cgiHandler h.written hres
    exact h.goesOn (b := { s.board with gpio := res.1 }) hgoes
      (Nat.le_refl _) (Nat.le_trans h.shown_le hgoes.puts.length_le)
      (h.response.later h.shown_le hgoes.puts)
  cases page with
  | leds =>
      rw [PinSystem.other, bind_eq_ok] at hrun
      obtain ⟨res, hres, heq⟩ := hrun
      obtain rfl := Except.ok.inj heq
      exact hled hres
  | ledsExt =>
      rw [PinSystem.other, bind_eq_ok] at hrun
      obtain ⟨res, hres, heq⟩ := hrun
      obtain rfl := Except.ok.inj heq
      exact hled hres
  | api =>
      rw [PinSystem.other, bind_eq_ok] at hrun
      obtain ⟨b, hres, heq⟩ := hrun
      obtain rfl := Except.ok.inj heq
      exact h.responded hres

/-- An answer changes nothing, or the record, to what has been shown. -/
theorem arrived_cases (s : PinSystem) (t : Nat) (body : JsString) :
    s.arrived t body = s ∨ ∃ m, recordStates (Json.parse body) =
      .ok (some m) ∧ s.arrived t body =
        { s with
          device := { s.device with devPinStates := some m }
          held := some t } := by
  rw [arrived, Device.recordAnswer, HttpOutcome.parsed, ok_bind]
  cases hrec : recordStates (Json.parse body) with
  | error e => exact .inl rfl
  | ok states =>
      cases states with
      | none => exact .inl rfl
      | some m => exact .inr ⟨m, rfl, rfl⟩

theorem Ok.arrived (h : s.Ok level device) {t : Nat} {body : JsString}
    (ht : t ≤ s.now) (hbody : BodyShows level s.board.gpio.puts t body) :
    (s.arrived t body).Ok level device := by
  rcases s.arrived_cases t body with heq | ⟨m, hm, heq⟩
  · rw [heq]
    exact h
  · rw [heq]
    refine ⟨h.written, h.shown_le, h.response, h.computed, h.answered, ?_,
      fun hnone => by cases hnone⟩
    intro t' ht'
    obtain rfl := Option.some.inj ht'
    exact ⟨ht, m, rfl, hbody m hm⟩

/-- All that an event can do. -/
inductive Effect (L : Nat) (s : PinSystem) (e : PinEvent) :
    PinSystem → Prop where
  | sent (call : Nat) (query : List Char) :
      Effect L s e ((s.setConn call (.sent query)).setWaiting call true)
  | computed (call : Nat) (r : Request) (b : Board)
      (hrun : apiCgiHandler s.board r = .ok b) :
      Effect L s e ((s.responded b).setConn call
        (.computed b.gpio.puts.length))
  | answered (call own : Nat) (inserted : String) (printed : Nat)
      (behind : JsString) (hconn : s.conns call = .computed own)
      (hssi : ssiHandler L s.board = .ok (inserted, printed)) :
      Effect L s e (s.setConn call (.answered own s.shown
        (sentBody L inserted printed behind)))
  | other (page : CgiPage) (r : Request) (s' : PinSystem)
      (hrun : s.other page r = .ok s') : Effect L s e s'
  | arrived (call own t : Nat) (body : JsString) (he : e = .arrive call)
      (hconn : s.conns call = .answered own t body) :
      Effect L s e ((s.arrived t body).setWaiting call false)
  | failed (call : Nat) : Effect L s e (s.setWaiting call false)

theorem send_effect {e : PinEvent} {call : Nat}
    {query : Except JsError (List Char)}
    (hstep : s.send call query = some s') : Effect L s e s' := by
  cases query with
  | error err =>
      rw [PinSystem.send] at hstep
      · cases hstep
      · exact fun query _ heq => by cases heq
  | ok query =>
      cases hconn : s.conns call with
      | idle =>
          simp only [PinSystem.send, hconn, Option.some.injEq] at hstep
          subst hstep
          exact .sent call query
      | _ => simp [PinSystem.send, hconn] at hstep

theorem pinStep_effect {e : PinEvent} (hstep : pinStep L s e = some s') :
    Effect L s e s' := by
  cases e with
  | setState call inStates => exact send_effect hstep
  | queryState call => exact send_effect hstep
  | cgi call names values =>
      rw [pinStep] at hstep
      split at hstep
      · split at hstep
        · next b hrun =>
            obtain rfl := Option.some.inj hstep
            exact .computed call _ b hrun
        · cases hstep
      · cases hstep
  | ssi call behind =>
      rw [pinStep] at hstep
      split at hstep
      · next own hconn =>
          split at hstep
          · next inserted printed hssi =>
              obtain rfl := Option.some.inj hstep
              exact .answered call own inserted printed behind hconn hssi
          · cases hstep
      · cases hstep
  | other page r =>
      rw [pinStep] at hstep
      split at hstep
      · next s₁ hrun =>
          obtain rfl := Option.some.inj hstep
          exact .other page r s₁ hrun
      · cases hstep
  | arrive call =>
      rw [pinStep] at hstep
      split at hstep
      · next own t body hconn =>
          split at hstep
          · obtain rfl := Option.some.inj hstep
            exact .arrived call own t body rfl hconn
          · cases hstep
      · cases hstep
  | fail call =>
      rw [pinStep] at hstep
      split at hstep
      · obtain rfl := Option.some.inj hstep
        exact .failed call
      · cases hstep

theorem Ok.step (h : s.Ok level device) {e : PinEvent}
    (heffect : Effect L s e s') : s'.Ok level device := by
  cases heffect with
  | sent call query =>
      refine Ok.setWaiting (h.setConn ?_ ?_) call true
      · exact fun own heq => by cases heq
      · exact fun own t body heq => by cases heq
  | computed call r b hrun =>
      refine (h.responded hrun).setConn ?_ ?_
      · intro own heq
        obtain rfl := PinConn.computed.inj heq
        exact Nat.le_refl _
      · exact fun own t body heq => by cases heq
  | answered call own inserted printed behind hconn hssi =>
      refine h.setConn (fun own heq => by cases heq) ?_
      intro own' t body heq
      obtain ⟨rfl, rfl, rfl⟩ := PinConn.answered.inj heq
      exact ⟨h.computed call own hconn, h.shown_le,
        bodyShows_sentBody h.response hssi behind⟩
  | other page r s' hrun => exact h.other hrun
  | arrived call own t body he hconn =>
      obtain ⟨_, ht, hbody⟩ := h.answered call own t body hconn
      exact (h.arrived ht hbody).setWaiting call false
  | failed call => exact h.setWaiting call false

theorem other_device {page : CgiPage} {r : Request}
    (hrun : s.other page r = .ok s') :
    s'.device = s.device ∧ s'.held = s.held := by
  cases page with
  | _ =>
      rw [PinSystem.other, bind_eq_ok] at hrun
      obtain ⟨res, hres, heq⟩ := hrun
      obtain rfl := Except.ok.inj heq
      exact ⟨rfl, rfl⟩

/-- The record is changed by an answer that arrives, and then shows a time
that is no earlier than that of the call's own request. -/
theorem Ok.record_step (h : s.Ok level device) {e : PinEvent}
    (heffect : Effect L s e s') :
    s'.device = s.device ∧ s'.held = s.held ∨
    ∃ call own t body, e = .arrive call ∧
      s.conns call = .answered own t body ∧ own ≤ t ∧ s'.held = some t := by
  cases heffect with
  | sent call query => exact .inl ⟨rfl, rfl⟩
  | computed call r b hrun => exact .inl ⟨rfl, rfl⟩
  | answered call own inserted printed behind => exact .inl ⟨rfl, rfl⟩
  | other page r s' hrun => exact .inl (other_device hrun)
  | arrived call own t body he hconn =>
      rcases s.arrived_cases t body with heq | ⟨m, _, heq⟩
      · rw [heq]
        exact .inl ⟨rfl, rfl⟩
      · rw [heq]
        exact .inr ⟨call, own, t, body, he, hconn,
          (h.answered call own t body hconn).1, rfl⟩
  | failed call => exact .inl ⟨rfl, rfl⟩

end

end PinSystem

/-! ## Runs -/

abbrev PinStep (L : Nat) (s : PinSystem) (e : PinEvent) (s' : PinSystem) :
    Prop := pinStep L s e = some s'

abbrev PinRun (L : Nat) : PinSystem → List PinEvent → PinSystem → Prop :=
  Run (PinStep L)

theorem PinRun.ok {L : Nat} {level out : Nat → Bool} {device : Device}
    {es : List PinEvent} {s : PinSystem}
    (h : PinRun L (.start device level out) es s) : s.Ok level device :=
  Run.invariant (fun hs hstep => hs.step (PinSystem.pinStep_effect hstep))
    (PinSystem.ok_start device level out) h

/-- What the server has of the pins, in every run. -/
structure PinsOfRun (L : Nat) (device : Device) (level out : Nat → Bool)
    (es : List PinEvent) (s : PinSystem) : Prop where
  /-- The pins are as they were last written, as outputs. -/
  pins : ∀ p, s.board.gpio.level p = levelAt level s.board.gpio.puts p
  outputs : ∀ w ∈ s.board.gpio.puts, s.board.gpio.out w.1 = true
  /-- What is recorded is how its pins all were at one time, -/
  record : ∀ t, s.held = some t → t ≤ s.now ∧
    ∃ m, s.device.devPinStates = some m ∧
      RecordShows level s.board.gpio.puts t m
  /-- and how they are, but for those that have been written since. -/
  current : ∀ t m pin state, s.held = some t →
    s.device.devPinStates = some m → m.get (pinKey pin) = some state →
    (∀ w ∈ s.board.gpio.puts.drop t, w.1 ≠ pin) →
    getProp? (some state) "sta" =
      some (.num (Dec.ofInt (s.board.gpio.level pin).toNat))
  unrecorded : s.held = none → s.device.devPinStates = device.devPinStates
  /-- Only an answer that arrives changes the record, to a time that is not
  before the call's own request was carried out. -/
  fresh : ∀ u e u', StepOf (PinStep L) (.start device level out) es u e u' →
    u'.device = u.device ∧ u'.held = u.held ∨
    ∃ call own t body, e = .arrive call ∧
      u.conns call = .answered own t body ∧ own ≤ t ∧ u'.held = some t

theorem pins_of_run {L : Nat} {level out : Nat → Bool} {device : Device}
    {es : List PinEvent} {s : PinSystem}
    (h : PinRun L (.start device level out) es s) :
    PinsOfRun L device level out es s := by
  have hok := h.ok
  refine ⟨hok.written.level, hok.written.out, hok.held, ?_, hok.unheld, ?_⟩
  · intro t m pin state ht hm hget hwrites
    obtain ⟨_, m', hm', hshows⟩ := hok.held t ht
    obtain rfl := Option.some.inj (hm.symm.trans hm')
    obtain ⟨pin', _, _, hkey, _, hsta⟩ := hshows _ _ hget
    obtain rfl := pinKey_inj hkey
    rw [hsta, hok.written.level pin, levelAt_of_unwritten hwrites]
  · intro u e u' hstep
    obtain ⟨before, after, _, hrun, hu⟩ := hstep
    exact (PinRun.ok hrun).record_step (PinSystem.pinStep_effect hu)

/-- A device with the pin 2. -/
def pinTwo : Device := ⟨none, none, some [2], none⟩

def raiseTwo : JsValue :=
  some (.arr [.obj [(js "pin", .num (Dec.ofInt 2)),
    (js "val", .num (Dec.ofInt 1))]])

/-- A query and a control message overlap at the board, and the query is
answered with what the control message has put together. -/
def crossed : List PinEvent :=
  [.queryState 0, .setState 1 raiseTwo,
    .cgi 0 (fun _ => some "") (fun _ => none),
    .cgi 1 (fun _ => some "") (fun _ => none),
    .ssi 0 [], .ssi 1 [], .arrive 0, .fail 1]

theorem pins_of_run_crossed : ∃ s,
    PinRun 192 (.start pinTwo (fun _ => false) (fun _ => true)) crossed s ∧
    s.held = some 19 ∧
    PinsOfRun 192 pinTwo (fun _ => false) (fun _ => true) crossed s := by
  have hheld : (crossed.foldlM (pinStep 192)
      (.start pinTwo (fun _ => false) (fun _ => true))).map
        PinSystem.held = some (some 19) := by decide +kernel
  obtain ⟨s, hrun, hs⟩ := Option.map_eq_some_iff.1 hheld
  have hrun := run_iff_foldlM_option.1 hrun
  exact ⟨s, hrun, hs, pins_of_run hrun⟩

end IotHome.Server
