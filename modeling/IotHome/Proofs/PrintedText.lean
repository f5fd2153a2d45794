import IotHome.Firmware.ResBuff
import IotHome.Proofs.ResponseBuffers

/-!
# What fits in `resBuff`

Nothing bounds the chain that is copied to `resBuff`, and nothing puts a zero
behind it. So a text is printed as it came just if it has no zero in it, is
shorter than 1000 bytes, and not shorter than any printed before, of whatever
response (`printsExactly_iff`). That goes as well for what the client comes to
behind the headers, in a chain that has been released, if it comes to
anything there.
-/

namespace IotHome.Firmware

open IotHome.Lib

/-- Every copy stays within `resBuff`, has a NUL behind it, and is what is
printed. -/
def PrintsExactly (stale : Nat → StaleChains) (r : Reception) : Prop :=
  (CBuffer.zeros resBuffSize).CopiesExact (r.copied stale)

/-- A buffer, and what is kept of those before it. -/
def Httpc.chain (s : Httpc) (p : List Pbuf) : List Pbuf :=
  if s.parseState = .rxData then p else s.rxHdrs ++ p

/-- The status is known, and the headers are complete with this buffer. -/
def Httpc.Completes (s : Httpc) (p : List Pbuf) : Prop :=
  s.parseState ≠ .rxData ∧
    (s.parseState = .waitHeaders ∨
      (httpParseResponseStatus (chainBytes (s.rxHdrs ++ p))).isSome) ∧
    (httpWaitHeaders (chainBytes (s.rxHdrs ++ p))).isSome

instance (s : Httpc) (p : List Pbuf) : Decidable (s.Completes p) :=
  inferInstanceAs (Decidable (_ ∧ _ ∧ _))

/-- The length of the headers. -/
def headersLength (bytes : List UInt8) : Nat :=
  match httpWaitHeaders bytes with
  | some (_, totalHeaderLen) => totalHeaderLen
  | none => 0

/-- The bytes can be printed behind texts of this length. -/
structure Printable (longest : Nat) (bytes : List UInt8) : Prop where
  nonzero : 0 ∉ bytes
  short : bytes.length < resBuffSize
  covers : longest ≤ bytes.length

/-- What the buffers have to be like, from some connections and the longest
text so far on. -/
def BuffersFit (stale : Nat → StaleChains) :
    Nat → Connections → Reception → Prop
  | _, _, [] => True
  | longest, conns, (i, p) :: rest =>
      let q := (conns i).chain p
      let bytes := chainBytes q
      if (conns i).parseState = .rxData then
        Printable longest bytes ∧
          BuffersFit stale bytes.length (conns.recv stale i p) rest
      else if (conns i).Completes p then
        let behind := stale i q (headersLength bytes)
        Printable longest bytes ∧
          if behind.chain = [] then
            BuffersFit stale bytes.length (conns.recv stale i p) rest
          else
            Printable bytes.length behind.bytes ∧
              BuffersFit stale behind.bytes.length (conns.recv stale i p) rest
      else BuffersFit stale longest (conns.recv stale i p) rest

/-! ## What the callbacks are given -/

@[simp] theorem bytes_whole (q : List Pbuf) :
    (Given.whole q).bytes = chainBytes q := List.take_length

theorem calls_rxData (stale : StaleChains) {s : Httpc}
    (h : s.parseState = .rxData) (p : List Pbuf) :
    s.calls stale p = [.whole (s.chain p)] := by
  rw [Httpc.calls, if_pos h, Httpc.chain, if_pos h]

theorem looks_rxHdrs (s : Httpc) (p : List Pbuf) :
    (s.keep p).firstLine.rxHdrs = s.rxHdrs ++ p := by
  rw [firstLine_rxHdrs, keep_rxHdrs]

theorem looks_waitHeaders {s : Httpc} (h : s.parseState ≠ .rxData)
    (p : List Pbuf) :
    (s.keep p).firstLine.parseState = .waitHeaders ↔
      s.parseState = .waitHeaders ∨
        (httpParseResponseStatus (chainBytes (s.rxHdrs ++ p))).isSome := by
  rw [firstLine_status (by rwa [keep_parseState]), keep_parseState,
    keep_rxHdrs]

theorem calls_of_not_completes (stale : StaleChains) {s : Httpc}
    {p : List Pbuf} (h : s.parseState ≠ .rxData) (hnot : ¬ s.Completes p) :
    s.calls stale p = [] := by
  rw [Httpc.calls, if_neg h]
  simp only [looks_rxHdrs, looks_waitHeaders h]
  split
  · next hstatus =>
      cases hheaders : httpWaitHeaders (chainBytes (s.rxHdrs ++ p)) with
      | none => rfl
      | some result =>
          exact absurd ⟨h, hstatus, by rw [hheaders]; rfl⟩ hnot
  · rfl

theorem calls_of_completes (stale : StaleChains) {s : Httpc} {p : List Pbuf}
    (h : s.Completes p) :
    let behind := stale (s.chain p) (headersLength (chainBytes (s.chain p)))
    s.calls stale p = .whole (s.chain p) ::
      if behind.chain = [] then [] else [behind.toGiven] := by
  obtain ⟨hwaits, hstatus, hheaders⟩ := h
  obtain ⟨⟨contentLength, len⟩, hsome⟩ := Option.isSome_iff_exists.1 hheaders
  rw [Httpc.calls, if_neg hwaits, Httpc.chain, if_neg hwaits]
  simp only [looks_rxHdrs, looks_waitHeaders hwaits, if_pos hstatus, hsome,
    headersLength]

/-- A chain that a callback is given, in the log. -/
def CalledIn (log : List PbufOp) (q : List Pbuf) : Prop :=
  ∃ before after, log = before ++ (uses q ++ pbufFree q) ++ after

theorem headersDone_called (stale : StaleChains) (s : Httpc)
    (contentLength : UInt32) (len : Nat) :
    CalledIn (s.headersDone stale contentLength len).log s.rxHdrs := by
  obtain ⟨ops, hops⟩ := headersDone_log stale s contentLength len
  exact ⟨s.log ++ [.recved len], uses (s.rxHdrs.take 1) ++ ops,
    by rw [hops]; simp⟩

theorem headersDone_called_behind {stale : StaleChains} {s : Httpc}
    {len : Nat} (hbehind : (stale s.rxHdrs len).chain ≠ [])
    (contentLength : UInt32) :
    CalledIn (s.headersDone stale contentLength len).log
      (stale s.rxHdrs len).chain := by
  rw [Httpc.headersDone, Httpc.hideHeaders]
  split
  · next hnil => exact absurd hnil hbehind
  · exact ⟨_, [], by rw [List.append_nil]; exact rxData_log _ _⟩

/-- What a callback is given is read and released when the buffer comes. -/
theorem calls_log {stale : StaleChains} {s : Httpc} {p : List Pbuf}
    {g : Given} (hg : g ∈ s.calls stale p) :
    CalledIn (httpcTcpRecv stale s p).log g.chain := by
  by_cases h : s.parseState = .rxData
  · rw [Httpc.calls, if_pos h] at hg
    rw [List.mem_singleton.1 hg, httpcTcpRecv, if_pos h]
    exact ⟨s.log, [], by rw [List.append_nil]; exact rxData_log _ _⟩
  · rw [Httpc.calls, if_neg h] at hg
    rw [httpcTcpRecv, if_neg h, Httpc.headers]
    simp only at hg
    split at hg
    · next hstate =>
        rw [if_pos hstate]
        cases hheaders : httpWaitHeaders
            (chainBytes (s.keep p).firstLine.rxHdrs) with
        | none =>
            rw [hheaders] at hg
            cases hg
        | some found =>
            obtain ⟨contentLength, len⟩ := found
            rw [hheaders] at hg
            rcases List.mem_cons.1 hg with rfl | hg
            · exact headersDone_called stale (Httpc.did _ _) contentLength len
            · split at hg
              · cases hg
              · next hbehind =>
                  rw [List.mem_singleton.1 hg]
                  exact headersDone_called_behind (s := Httpc.did _ _)
                    hbehind contentLength
    · cases hg

/-! ## All that comes -/

theorem ascending_cons_iff (longest : Nat) (bytes : List UInt8)
    (rest : List (List UInt8)) :
    CBuffer.Ascending resBuffSize longest (bytes :: rest) ↔
      Printable longest bytes ∧
        CBuffer.Ascending resBuffSize bytes.length rest := by
  constructor
  · rintro ⟨⟨hnonzero, hshort⟩, hcovers, hrest⟩
    exact ⟨⟨hnonzero, hshort, hcovers⟩, hrest⟩
  · rintro ⟨⟨hnonzero, hshort, hcovers⟩, hrest⟩
    exact ⟨⟨hnonzero, hshort⟩, hcovers, hrest⟩

theorem buffersFit_iff (stale : Nat → StaleChains) (r : Reception) :
    ∀ longest conns, BuffersFit stale longest conns r ↔
      CBuffer.Ascending resBuffSize longest
        ((Connections.calls stale conns r).map Given.bytes) := by
  induction r with
  | nil =>
      intro longest conns
      exact Iff.rfl
  | cons event rest ih =>
      intro longest conns
      obtain ⟨i, p⟩ := event
      rw [BuffersFit, Connections.calls, List.map_append]
      split
      · next hdata =>
          rw [calls_rxData _ hdata, List.map_singleton,
            List.singleton_append, bytes_whole, ascending_cons_iff, ih]
      · next hwaits =>
          split
          · next hcompletes =>
              rw [calls_of_completes _ hcompletes, List.map_cons,
                List.cons_append, bytes_whole, ascending_cons_iff]
              refine and_congr_right fun _ => ?_
              split
              · exact ih _ _
              · rw [List.map_singleton, List.singleton_append,
                  ascending_cons_iff, ih]
          · next hnot =>
              rw [calls_of_not_completes _ hwaits hnot, ih]
              rfl

/-- The texts are printed as they came just if the buffers fit. -/
theorem printsExactly_iff (stale : Nat → StaleChains) (r : Reception) :
    PrintsExactly stale r ↔ BuffersFit stale 0 (fun _ => .start) r :=
  (CBuffer.copiesExact_iff (r.copied stale)).trans
    (buffersFit_iff stale r 0 _).symm

/-- A page of 1000 bytes behind the headers, in one buffer. -/
def longPage : List Pbuf :=
  [⟨0, asciiBytes "HTTP/1.1 200 OK\r\n\r\n" ++
    List.replicate 1000 'a'.toUInt8⟩]

/-- The first copy is too long, whatever else there is to copy. -/
theorem not_printsExactly : ¬ ∃ stale, ∀ r, PrintsExactly stale r := by
  rintro ⟨stale, h⟩
  have hcompletes : Httpc.start.Completes longPage := by decide +kernel
  have hcopied := h [(0, longPage)]
  rw [PrintsExactly, CBuffer.copiesExact_iff, Reception.copied,
    Connections.calls, calls_of_completes _ hcompletes, List.cons_append,
    List.map_cons, bytes_whole, ascending_cons_iff] at hcopied
  have hlong : (chainBytes (Httpc.start.chain longPage)).length = 1019 := by
    decide +kernel
  have hshort := hcopied.1.short
  rw [hlong] at hshort
  exact absurd hshort (by decide)

end IotHome.Firmware
