import IotHome.Firmware.ApiHandler
import IotHome.Lib.Assoc
import IotHome.Lib.Outcome
import Mathlib.Data.List.Nodup

/-!
# What a request asks of the pins

The handler walks the parameters, fills two tables and walks the tables. What
it is for is simpler to say: a request is a list of commands, each naming a
pin and either a value to drive it to or, by a negative value, nothing but a
reading; of several commands for one pin the last one counts; and each pin
from 1 to 9 that is named is driven as its command says and reported with the
level it has afterwards.

`commandsFrom` reads the list off the parameter arrays, `requested` picks the
commands that count, in pin order, and `handleRequestParams_eq` says that the
handler does what the list asks. Everything later on goes through it: the
loops and the two tables do not appear again.
-/

namespace IotHome.Firmware

open IotHome.Lib

/-- A pin and the value asked for it; a negative value only reads. -/
abbrev Command := Nat × Int

/-- The value the look-ahead of the parameter loop finds for the `pin` at
index `i`. -/
def valAfter (pcParam pcValue : Nat → CharPtr) (i : Nat) : Except Fault Int :=
  if i + 1 < 10 then do
    if ← strcmpEq (pcParam (i + 1)) "val" then atoi (pcValue (i + 1))
    else pure (-1)
  else pure (-1)

def commandAt (pcParam pcValue : Nat → CharPtr) (i : Nat) :
    Except Fault (List Command) := do
  if ← strcmpEq (pcParam i) "pin" then
    let pin ← atoi (pcValue i)
    let pin ← arrayIndex pin
    let val ← valAfter pcParam pcValue i
    pure [(pin, val)]
  else
    pure []

/-- The commands of the parameters from index `i`, the tenth being the last
one looked at. -/
def commandsFrom (pcParam pcValue : Nat → CharPtr) :
    (left i : Nat) → Except Fault (List Command)
  | 0, _ => pure []
  | left + 1, i =>
      if i = 10 then pure []
      else do
        let c ← commandAt pcParam pcValue i
        let cs ← commandsFrom pcParam pcValue left (i + 1)
        pure (c ++ cs)

/-- The commands that count, in the order in which they are carried out. -/
def requested (cs : List Command) : List Command :=
  apiPins.filterMap fun p => (lastFor p cs).map fun v => (p, v)

/-- Carry one command out. -/
def drive (g : Gpio) (c : Command) : Gpio := (gpio g c.1 true c.2).1

/-- The level a pin has once its command is carried out. -/
def levelAfter (g : Gpio) (c : Command) : Bool :=
  if c.2 ≥ 0 then c.2 != 0 else g.level c.1

/-- The text reported for a command. -/
def commandText (g : Gpio) (c : Command) : String :=
  objText c.1 c.2 true (levelAfter g c)

/-- Texts with a comma between each two of them. -/
def joinComma : List String → String
  | [] => ""
  | x :: xs => xs.foldl (fun acc y => acc ++ "," ++ y) x

def responseText (g : Gpio) (rs : List Command) : String :=
  "[" ++ joinComma (rs.map (commandText g)) ++ "]"

/-! ## One parameter -/

theorem valAfter_val {pcParam pcValue : Nat → CharPtr} {i : Nat}
    (hi : i + 1 < 10) (h : pcParam (i + 1) = some "val") :
    valAfter pcParam pcValue i = atoi (pcValue (i + 1)) := by
  rw [valAfter, if_pos hi, h]
  rfl

theorem valAfter_not_val {pcParam pcValue : Nat → CharPtr} {i : Nat}
    {name : String} (h : pcParam (i + 1) = some name) (hne : name ≠ "val") :
    valAfter pcParam pcValue i = .ok (-1) := by
  rw [valAfter, h]
  simp [strcmpEq, hne]

theorem commandAt_pin {pcParam pcValue : Nat → CharPtr} {i : Nat}
    (h : pcParam i = some "pin") :
    commandAt pcParam pcValue i =
      (do
        let pin ← (atoi (pcValue i) >>= arrayIndex)
        let val ← valAfter pcParam pcValue i
        pure [(pin, val)]) := by
  rw [commandAt, h]
  cases atoi (pcValue i) with
  | error e => rfl
  | ok x => rfl

theorem commandAt_not_pin {pcParam pcValue : Nat → CharPtr} {i : Nat}
    {name : String} (h : pcParam i = some name) (hne : name ≠ "pin") :
    commandAt pcParam pcValue i = .ok [] := by
  rw [commandAt, h]
  simp [strcmpEq, hne]

/-- What holds of every command that is read holds of all of them. -/
theorem forall_commandsFrom {pcParam pcValue : Nat → CharPtr}
    {P : Command → Prop}
    (h : ∀ i c, commandAt pcParam pcValue i = .ok c → ∀ d ∈ c, P d) :
    ∀ left i cs, commandsFrom pcParam pcValue left i = .ok cs →
      ∀ d ∈ cs, P d := by
  intro left
  induction left with
  | zero =>
      intro i cs hcs d hd
      obtain rfl := (Except.ok.inj hcs).symm
      cases hd
  | succ left ih =>
      intro i cs hcs d hd
      rw [commandsFrom] at hcs
      split at hcs
      · obtain rfl := (Except.ok.inj hcs).symm
        cases hd
      · rw [bind_eq_ok] at hcs
        obtain ⟨c, hc, hcs⟩ := hcs
        rw [bind_eq_ok] at hcs
        obtain ⟨cs', hcs', hcs⟩ := hcs
        obtain rfl := (Except.ok.inj hcs).symm
        rcases List.mem_append.1 hd with hd | hd
        · exact h i c hc d hd
        · exact ih (i + 1) cs' hcs' d hd

/-- The numbers of a command are a table index and a 32-bit `int`. -/
theorem commandAt_bounds {pcParam pcValue : Nat → CharPtr} {i : Nat}
    {c : List Command} (hc : commandAt pcParam pcValue i = .ok c) :
    ∀ d ∈ c, d.1 < 10 ∧ -2147483648 ≤ d.2 ∧ d.2 ≤ 2147483647 := by
  have hatoi : ∀ {p : CharPtr} {x : Int}, atoi p = .ok x →
      -2147483648 ≤ x ∧ x ≤ 2147483647 := by
    intro p x hx
    cases p with
    | none => cases hx
    | some s =>
        obtain rfl := Except.ok.inj hx
        rw [clampInt32]
        omega
  have hval : ∀ {v : Int}, valAfter pcParam pcValue i = .ok v →
      -2147483648 ≤ v ∧ v ≤ 2147483647 := by
    intro v hv
    rw [valAfter] at hv
    split at hv
    · rw [bind_eq_ok] at hv
      obtain ⟨named, _, hv⟩ := hv
      split at hv
      · exact hatoi hv
      · obtain rfl := Except.ok.inj hv
        omega
    · obtain rfl := Except.ok.inj hv
      omega
  rw [commandAt, bind_eq_ok] at hc
  obtain ⟨named, _, hc⟩ := hc
  split at hc
  · rw [bind_eq_ok] at hc
    obtain ⟨x, _, hc⟩ := hc
    rw [bind_eq_ok] at hc
    obtain ⟨pin, hpin, hc⟩ := hc
    rw [bind_eq_ok] at hc
    obtain ⟨v, hv, hc⟩ := hc
    obtain rfl := Except.ok.inj hc
    intro d hd
    obtain rfl := List.mem_singleton.1 hd
    refine ⟨?_, hval hv⟩
    rw [arrayIndex] at hpin
    split at hpin
    · obtain rfl := Except.ok.inj hpin
      show x.toNat < 10
      omega
    · cases hpin
  · obtain rfl := Except.ok.inj hc
    intro d hd
    cases hd

/-! ## The parameter loop fills the tables with the commands -/

def Tables.perform (t : Tables) (c : Command) : Tables where
  pins p := if p = c.1 then 1 else t.pins p
  vals p := if p = c.1 then c.2 else t.vals p

/-- The two branches of the look-ahead write the same cell: which of them is
taken decides the value only. -/
theorem lookAhead_eq (pcParam pcValue : Nat → CharPtr) (i : Nat) (pin : Int)
    (t : Tables) :
    (if i + 1 < 10 then do
        if ← strcmpEq (pcParam (i + 1)) "val" then
          let val ← atoi (pcValue (i + 1))
          t.setVal pin val
        else
          t.setVal pin (-1)
      else
        t.setVal pin (-1)) =
      valAfter pcParam pcValue i >>= t.setVal pin := by
  rw [valAfter]
  split
  · cases strcmpEq (pcParam (i + 1)) "val" with
    | error e => rfl
    | ok named => cases named <;> rfl
  · rfl

theorem paramStep_eq (pcParam pcValue : Nat → CharPtr) (i : Nat) (t : Tables) :
    paramStep pcParam pcValue i t =
      (commandAt pcParam pcValue i).map (List.foldl Tables.perform t) := by
  rw [paramStep, commandAt]
  cases strcmpEq (pcParam i) "pin" with
  | error e => rfl
  | ok named =>
      cases named with
      | false => rfl
      | true =>
          simp only [ok_bind, if_true, lookAhead_eq]
          cases atoi (pcValue i) with
          | error e => rfl
          | ok pin =>
              simp only [ok_bind, Tables.setPin]
              cases hidx : arrayIndex pin with
              | error e => rfl
              | ok p =>
                  cases valAfter pcParam pcValue i with
                  | error e => rfl
                  | ok v => simp [Tables.setVal, hidx, Tables.perform]

theorem paramLoop_eq (pcParam pcValue : Nat → CharPtr) :
    ∀ (left i : Nat) (t : Tables),
      paramLoop pcParam pcValue left i t =
        (commandsFrom pcParam pcValue left i).map
          (List.foldl Tables.perform t) := by
  intro left
  induction left with
  | zero => intro i t; rfl
  | succ left ih =>
      intro i t
      rw [paramLoop, commandsFrom]
      split
      · rfl
      · rw [paramStep_eq]
        cases commandAt pcParam pcValue i with
        | error e => rfl
        | ok c =>
            show paramLoop pcParam pcValue left (i + 1) _ = _
            rw [ih]
            cases commandsFrom pcParam pcValue left (i + 1) with
            | error e => rfl
            | ok cs =>
                show Except.ok _ = Except.ok _
                rw [List.foldl_append]

theorem perform_pins (cs : List Command) (t : Tables) (p : Nat) :
    (cs.foldl Tables.perform t).pins p =
      if (lastFor p cs).isSome then 1 else t.pins p := by
  have hput : ∀ (t : Tables) (c : Command) (p : Nat),
      (t.perform c).pins p = if c.1 = p then 1 else t.pins p :=
    fun t c p => by simp [Tables.perform, eq_comm]
  rw [read_foldl Tables.pins (fun _ => 1) hput]
  cases lastFor p cs with
  | none => rfl
  | some v => rfl

theorem perform_vals (cs : List Command) (t : Tables) (p : Nat) :
    (cs.foldl Tables.perform t).vals p = (lastFor p cs).getD (t.vals p) := by
  have hput : ∀ (t : Tables) (c : Command) (p : Nat),
      (t.perform c).vals p = if c.1 = p then id c.2 else t.vals p :=
    fun t c p => by simp [Tables.perform, eq_comm]
  rw [read_foldl Tables.vals id hput, Option.map_id_fun, id]

/-! ## The report loop carries them out -/

/-- One turn of the report loop for a pin that is named. -/
def reportCommand (r : Report) (c : Command) : Report :=
  ⟨drive r.gpio c, r.objI + 1,
    (if r.objI ≠ 0 then r.res ++ "," else r.res) ++ commandText r.gpio c⟩

theorem gpio_snd (g : Gpio) (pin : Nat) (v : Int) :
    (gpio g pin true v).2 = levelAfter g (pin, v) := by
  by_cases hv : v ≥ 0 <;>
    simp [gpio, levelAfter, hv, Gpio.gpioGet, Gpio.gpioPut, Gpio.gpioSetDir]

theorem reportStep_eq (cs : List Command) (r : Report) (pin : Nat) :
    reportStep (cs.foldl Tables.perform Tables.zero) r pin =
      match lastFor pin cs with
      | none => r
      | some v => reportCommand r (pin, v) := by
  rw [reportStep, perform_pins, perform_vals]
  cases lastFor pin cs with
  | none => rfl
  | some v =>
      simp only [Option.isSome_some, if_true, Option.getD_some]
      rw [if_neg (by decide), reportCommand, commandText, ← gpio_snd]
      rfl

theorem foldl_reportStep (cs : List Command) (pins : List Nat) (r : Report) :
    pins.foldl (reportStep (cs.foldl Tables.perform Tables.zero)) r =
      (pins.filterMap fun p => (lastFor p cs).map fun v => (p, v)).foldl
        reportCommand r := by
  induction pins generalizing r with
  | nil => rfl
  | cons p pins ih =>
      rw [List.foldl_cons, ih, reportStep_eq, List.filterMap_cons]
      cases lastFor p cs <;> rfl

theorem drive_level (g : Gpio) (c : Command) (p : Nat) :
    (drive g c).level p = if p = c.1 then levelAfter g c else g.level p := by
  by_cases hv : c.2 ≥ 0
  · simp [drive, gpio, levelAfter, hv, Gpio.gpioPut, Gpio.gpioSetDir]
  · by_cases hp : p = c.1 <;>
      simp [drive, gpio, levelAfter, hv, Gpio.gpioSetDir, hp]

theorem drive_level_ne {g : Gpio} {c : Command} {p : Nat} (h : p ≠ c.1) :
    (drive g c).level p = g.level p := by rw [drive_level, if_neg h]

theorem drive_puts (g : Gpio) (c : Command) :
    (drive g c).puts =
      g.puts ++ if c.2 ≥ 0 then [(c.1, c.2 != 0)] else [] := by
  by_cases hv : c.2 ≥ 0 <;>
    simp [drive, gpio, hv, Gpio.gpioPut, Gpio.gpioSetDir]

theorem commandText_drive_ne {g : Gpio} {c d : Command} (h : d.1 ≠ c.1) :
    commandText (drive g c) d = commandText g d := by
  rw [commandText, commandText, levelAfter, levelAfter, drive_level_ne h]

/-- A command changes no text but its own pin's. -/
theorem map_commandText_drive {g : Gpio} {c : Command} {rs : List Command}
    (h : c.1 ∉ rs.map Prod.fst) :
    rs.map (commandText (drive g c)) = rs.map (commandText g) := by
  refine List.map_congr_left fun d hd => commandText_drive_ne fun heq => h ?_
  rw [← heq]
  exact List.mem_map_of_mem hd

theorem foldl_comma_append (ys : List String) (a b : String) :
    ys.foldl (fun acc y => acc ++ "," ++ y) (a ++ b) =
      a ++ ys.foldl (fun acc y => acc ++ "," ++ y) b := by
  induction ys generalizing a b with
  | nil => rfl
  | cons y ys ih =>
      rw [List.foldl_cons, List.foldl_cons, ← ih]
      simp only [String.append_assoc]

/-- The report loop over commands for distinct pins, entered with objects
already written: each text then gets a comma before it. -/
theorem foldl_reportCommand_succ (rs : List Command)
    (hnd : (rs.map Prod.fst).Nodup) :
    ∀ (g : Gpio) (k : Nat) (res : String),
      rs.foldl reportCommand ⟨g, k + 1, res⟩ =
        ⟨rs.foldl drive g, k + 1 + rs.length,
          (rs.map (commandText g)).foldl (fun acc y => acc ++ "," ++ y)
            res⟩ := by
  induction rs with
  | nil => intro g k res; rfl
  | cons c rs ih =>
      intro g k res
      rw [List.map_cons, List.nodup_cons] at hnd
      rw [List.foldl_cons, reportCommand, if_pos (Nat.succ_ne_zero k),
        ih hnd.2, map_commandText_drive hnd.1, List.map_cons,
        List.foldl_cons, List.foldl_cons, List.length_cons]
      congr 1
      exact Nat.add_right_comm (k + 1) 1 rs.length

theorem foldl_reportCommand (rs : List Command)
    (hnd : (rs.map Prod.fst).Nodup) (g : Gpio) :
    rs.foldl reportCommand ⟨g, 0, "["⟩ =
      ⟨rs.foldl drive g, rs.length,
        "[" ++ joinComma (rs.map (commandText g))⟩ := by
  cases rs with
  | nil => rfl
  | cons c rs =>
      rw [List.map_cons, List.nodup_cons] at hnd
      rw [List.foldl_cons, reportCommand,
        foldl_reportCommand_succ rs hnd.2, map_commandText_drive hnd.1,
        List.length_cons, List.map_cons, joinComma, List.foldl_cons]
      congr 1
      · exact Nat.add_comm 1 rs.length
      · exact foldl_comma_append _ _ _

theorem map_fst_requested (cs : List Command) :
    (requested cs).map Prod.fst =
      apiPins.filter fun p => (lastFor p cs).isSome := by
  rw [requested]
  induction apiPins with
  | nil => rfl
  | cons p pins ih =>
      rw [List.filterMap_cons, List.filter_cons]
      cases lastFor p cs <;> simp [ih]

theorem nodup_requested (cs : List Command) :
    ((requested cs).map Prod.fst).Nodup := by
  rw [map_fst_requested]
  exact List.Nodup.filter _ (by decide)

/-- The handler carries out the commands that count and reports each of
them with the level its pin then has. -/
theorem handleRequestParams_eq (n : Nat) (pcParam pcValue : Nat → CharPtr)
    (g : Gpio) :
    handleRequestParams n pcParam pcValue g =
      (commandsFrom pcParam pcValue n 0).map fun cs =>
        ((requested cs).foldl drive g, responseText g (requested cs)) := by
  rw [handleRequestParams, paramLoop_eq]
  cases commandsFrom pcParam pcValue n 0 with
  | error e => rfl
  | ok cs =>
      show Except.ok _ = Except.ok _
      rw [foldl_reportStep, ← requested,
        foldl_reportCommand _ (nodup_requested cs)]
      rfl

/-! ## Levels and writes -/

theorem clampInt32_small {n : Nat} (h : n < 10) : clampInt32 n = n := by
  rw [clampInt32]
  omega

theorem mem_apiPins {p : Nat} : p ∈ apiPins ↔ 1 ≤ p ∧ p ≤ 9 := by
  constructor
  · intro h
    simp only [apiPins, List.mem_cons, List.not_mem_nil, or_false] at h
    omega
  · intro h
    have hall : ∀ q, q < 10 → 1 ≤ q → q ∈ apiPins := by decide
    exact hall p (by omega) h.1

theorem mem_requested {cs : List Command} {d : Command}
    (h : d ∈ requested cs) : d ∈ cs := by
  rw [requested, List.mem_filterMap] at h
  obtain ⟨p, _, hd⟩ := h
  cases hl : lastFor p cs with
  | none => rw [hl] at hd; cases hd
  | some v =>
      rw [hl] at hd
      obtain rfl := (Option.some.inj hd).symm
      exact mem_of_lastFor hl

theorem lastFor_requested (cs : List Command) (p : Nat) :
    lastFor p (requested cs) = if p ∈ apiPins then lastFor p cs else none := by
  have hkey := map_fst_requested cs
  cases hl : lastFor p (requested cs) with
  | none =>
      by_cases hp : p ∈ apiPins
      · rw [if_pos hp]
        cases hc : lastFor p cs with
        | none => rfl
        | some v =>
            have hmem : p ∈ (requested cs).map Prod.fst := by
              rw [hkey, List.mem_filter, hc]; exact ⟨hp, rfl⟩
            obtain ⟨w, hw, rfl⟩ := List.mem_map.mp hmem
            exact absurd rfl (lastFor_eq_none.1 hl w hw)
      · rw [if_neg hp]
  | some v =>
      have hmem := mem_of_lastFor hl
      rw [requested, List.mem_filterMap] at hmem
      obtain ⟨q, hq, hv⟩ := hmem
      cases hc : lastFor q cs with
      | none => simp [hc] at hv
      | some u =>
          simp only [hc, Option.map_some, Option.some.injEq,
            Prod.mk.injEq] at hv
          obtain ⟨rfl, rfl⟩ := hv
          rw [if_pos hq, hc]

theorem foldl_drive_level (rs : List Command)
    (hnd : (rs.map Prod.fst).Nodup) (g : Gpio) (p : Nat) :
    (rs.foldl drive g).level p =
      match lastFor p rs with
      | none => g.level p
      | some v => levelAfter g (p, v) := by
  induction rs generalizing g with
  | nil => rfl
  | cons c rs ih =>
      rw [List.map_cons, List.nodup_cons] at hnd
      rw [List.foldl_cons, ih hnd.2]
      obtain ⟨q, v⟩ := c
      rw [lastFor_cons]
      by_cases hp : q = p
      · subst hp
        rw [lastFor_of_notMem hnd.1]
        simp [drive_level]
      · have hne : p ≠ q := Ne.symm hp
        cases lastFor p rs with
        | none => simp [hp, drive_level, hne]
        | some u => simp [levelAfter, drive_level, hne]

/-- The level of a pin after a request: what its last command says, and for
a pin that is not named, or that lies outside 1 to 9, what it was. -/
theorem level_after (cs : List Command) (g : Gpio) (p : Nat) :
    ((requested cs).foldl drive g).level p =
      match if p ∈ apiPins then lastFor p cs else none with
      | none => g.level p
      | some v => levelAfter g (p, v) := by
  rw [foldl_drive_level _ (nodup_requested cs), lastFor_requested]

/-- The writes of a request, in order. -/
theorem foldl_drive_puts (rs : List Command) (g : Gpio) :
    (rs.foldl drive g).puts = g.puts ++
      rs.flatMap fun c => if c.2 ≥ 0 then [(c.1, c.2 != 0)] else [] := by
  induction rs generalizing g with
  | nil => simp
  | cons c rs ih =>
      rw [List.foldl_cons, ih, drive_puts, List.flatMap_cons,
        List.append_assoc]

end IotHome.Firmware
