import IotHome.Cmd.CommandLine

/-!
# What the command line reads

The scan is followed one piece of text at a time: within quotes, or where
there is no blank, a text without backquotes goes to the word as it is
(`scan_plain`); blanks and a closing quote end the word, if there is one. From
this comes the round trip `parseCommand_written`: arguments that were written
down, each in quotes or bare with a blank behind it, are read back, with the
empty word at the end.
-/

namespace IotHome.Cmd

open IotHome.Lib

/-- The scan of a text. -/
def Scan.scan (s : Scan) (text : JsString) : Scan := text.foldl Scan.read s

theorem scan_append (s : Scan) (a b : JsString) :
    s.scan (a ++ b) = (s.scan a).scan b := List.foldl_append

theorem scan_cons (s : Scan) (u : UInt16) (text : JsString) :
    s.scan (u :: text) = (s.read u).scan text := rfl

theorem quote_ne_space : quote ≠ space := by decide

theorem read_quote_open (args : List JsString) (word : JsString) :
    (⟨args, word, false⟩ : Scan).read quote = ⟨args, word, true⟩ := by
  rw [Scan.read, if_neg fun h => quote_ne_space h.2, if_pos rfl]
  rfl

theorem read_quote_close (args : List JsString) {word : JsString}
    (h : word ≠ []) :
    (⟨args, word, true⟩ : Scan).read quote = ⟨args ++ [word], [], false⟩ := by
  rw [Scan.read, if_neg fun h => quote_ne_space h.2, if_pos rfl, if_pos rfl,
    Scan.flush, if_neg h]

theorem read_space (args : List JsString) {word : JsString}
    (h : word ≠ []) :
    (⟨args, word, false⟩ : Scan).read space = ⟨args ++ [word], [], false⟩ := by
  rw [Scan.read, if_pos ⟨rfl, rfl⟩, Scan.flush, if_neg h]

theorem read_space_nil (args : List JsString) :
    (⟨args, [], false⟩ : Scan).read space = ⟨args, [], false⟩ := by
  rw [Scan.read, if_pos ⟨rfl, rfl⟩, Scan.flush, if_pos rfl]

theorem read_plain (args : List JsString) (word : JsString) {q : Bool}
    {u : UInt16} (hquote : u ≠ quote) (hspace : q = false → u ≠ space) :
    (⟨args, word, q⟩ : Scan).read u = ⟨args, word ++ [u], q⟩ := by
  rw [Scan.read, if_neg fun h => hspace h.1 h.2, if_neg hquote]

/-- A text that is not taken apart. -/
theorem scan_plain (args : List JsString) (word : JsString) {q : Bool}
    {text : JsString} (hquote : quote ∉ text)
    (hspace : q = false → space ∉ text) :
    (⟨args, word, q⟩ : Scan).scan text = ⟨args, word ++ text, q⟩ := by
  induction text generalizing word with
  | nil => rw [List.append_nil]; rfl
  | cons u text ih =>
      rw [List.mem_cons, not_or] at hquote
      have hu := read_plain args word (Ne.symm hquote.1)
        fun hq heq => hspace hq (heq ▸ List.mem_cons_self)
      rw [scan_cons, hu, ih _ hquote.2 fun hq hmem =>
        hspace hq (List.mem_cons_of_mem u hmem), List.append_assoc]
      rfl

/-- Blanks behind a word that is done change nothing. -/
theorem scan_spaces (args : List JsString) (n : Nat) :
    (⟨args, [], false⟩ : Scan).scan (List.replicate n space) =
      ⟨args, [], false⟩ := by
  induction n with
  | zero => rfl
  | succ n ih => rw [List.replicate_succ, scan_cons, read_space_nil, ih]

/-! ## Arguments that are written down -/

/-- An argument as it can be written: in quotes, or bare if it has no blank
and one behind it. -/
structure Piece where
  arg : JsString
  bare : Bool
  gap : Nat
  ne_nil : arg ≠ []
  no_quote : quote ∉ arg
  separated : bare = true → space ∉ arg ∧ 0 < gap

def Piece.text (p : Piece) : JsString :=
  (if p.bare then p.arg else quote :: p.arg ++ [quote]) ++
    List.replicate p.gap space

def written (pieces : List Piece) : JsString := pieces.flatMap Piece.text

theorem scan_piece (args : List JsString) (p : Piece) :
    (⟨args, [], false⟩ : Scan).scan p.text = ⟨args ++ [p.arg], [], false⟩ := by
  rw [Piece.text, scan_append]
  cases hbare : p.bare with
  | true =>
      obtain ⟨hspace, hgap⟩ := p.separated hbare
      obtain ⟨n, hn⟩ := Nat.exists_eq_add_of_lt hgap
      rw [if_pos rfl, scan_plain args [] p.no_quote fun _ => hspace, hn,
        Nat.zero_add, List.replicate_succ, scan_cons, List.nil_append,
        read_space args p.ne_nil, scan_spaces]
  | false =>
      rw [if_neg (by decide), List.cons_append, scan_cons, read_quote_open,
        scan_append, scan_plain args [] p.no_quote (fun h => by cases h),
        scan_cons, List.nil_append, read_quote_close args p.ne_nil]
      exact scan_spaces _ p.gap

theorem scan_written (args : List JsString) (pieces : List Piece) :
    (⟨args, [], false⟩ : Scan).scan (written pieces) =
      ⟨args ++ pieces.map Piece.arg, [], false⟩ := by
  induction pieces generalizing args with
  | nil => rw [List.map_nil, List.append_nil]; rfl
  | cons p pieces ih =>
      rw [written, List.flatMap_cons, scan_append, scan_piece, ← written, ih,
        List.append_assoc]
      rfl

/-- What is written down is read back, and a new argument begun. -/
theorem parseCommand_written (pieces : List Piece) :
    parseCommand (written pieces) = pieces.map Piece.arg ++ [[]] := by
  have hscan := scan_written [] pieces
  show (Scan.init.scan (written pieces)).args ++
    [(Scan.init.scan (written pieces)).word] = _
  rw [Scan.init, hscan]
  rfl

/-- An argument with a blank, in quotes, and one without, bare. -/
def twoPieces : List Piece :=
  [{ arg := js "a b", bare := false, gap := 2, ne_nil := by decide,
     no_quote := by decide, separated := nofun },
   { arg := js "c", bare := true, gap := 1, ne_nil := by decide,
     no_quote := by decide, separated := by decide }]

theorem parseCommand_written_two :
    written twoPieces = js "`a b`  c " ∧
      parseCommand (js "`a b`  c ") = [js "a b", js "c", []] := by
  have htext : written twoPieces = js "`a b`  c " := by decide
  exact ⟨htext, htext ▸ parseCommand_written twoPieces⟩

example : parseCommand (js "`a b`  c d") = [js "a b", js "c", js "d"] := by
  decide

end IotHome.Cmd
