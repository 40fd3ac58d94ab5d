/-
  PicoosLwip.Dhcps.PadOptions — the option scan and the PAD option.

  A DHCP options field is a sequence of options closed by END, where PAD, code
  0, is a single byte and every other option has a length and data.  The scan
  of `handleRequest` knows one layout only: it takes the byte behind a PAD for
  its length and skips that many bytes more.  So it reads the field as a list of
  code/length/data options, PADs among them, whatever the grammar says.

  Main results:
    * `scan_grammar_iff`      — the scan implements the grammar on a field
                                exactly when that reading of its PADs ends at
                                the END and finds the same address;
    * `PadsHarmless.of_pairs` — PADs that stand in pairs are read so;
    * `pad_before_end_missed` — one PAD in front of END is not.
-/
import PicoosLwip.Dhcps.Requests

namespace PicoosLwip.Dhcps

open PicoosLwip.Framework

/-! ## §1. The grammar. -/

/-- The option that is a single byte. -/
abbrev OPT_PAD : UInt8 := 0

/-- An option as the grammar has it. -/
inductive FieldOpt where
  | pad
  | tlv (t : Tlv) (code_ne_pad : t.code ≠ OPT_PAD)

/-- As they stand in the message. -/
def FieldOpt.bytes : FieldOpt → List UInt8
  | .pad => [OPT_PAD]
  | .tlv t _ => t.bytes

/-- A PAD is no option. -/
def FieldOpt.tlv? : FieldOpt → Option Tlv
  | .pad => none
  | .tlv t _ => some t

/-- PADs and options in a row. -/
def encodeField (os : List FieldOpt) : List UInt8 := os.flatMap FieldOpt.bytes

/-- The data of the last option 50 of length 4, or 0.0.0.0. -/
def fieldReqAddr (os : List FieldOpt) : Ip4Addr :=
  (lastReqAddr (os.filterMap FieldOpt.tlv?)).getD anyAddr

/-- The options field of `p` starts with `os`, closed by END. -/
def Pbuf.HasField (p : Pbuf) (os : List FieldOpt) : Prop :=
  ∃ rest, p.payload.drop ofsOptions = encodeField os ++ OPT_END :: rest

/-- The scan finds the address of `os`, and the last byte it reads is the END. -/
structure ScansGrammar (p : Pbuf) (os : List FieldOpt) : Prop where
  result : ∀ s, (p.scan s).result = .ok (fieldReqAddr os)
  stop : ∀ s, (p.scan s).events.getLast?
    = some (.read .request (ofsOptions + (encodeField os).length) 1)

/-- Read as code, length and data, PADs included, the bytes of `os` are a list
of options too, with the same requested address. -/
def PadsHarmless (os : List FieldOpt) : Prop :=
  ∃ ts, encodeOpts ts = encodeField os ∧ (lastReqAddr ts).getD anyAddr = fieldReqAddr os

/-! ## §2. The scan and the grammar. -/

/-- A scan ends with reading the END. -/
theorem getLast?_scanReads (ts : List Tlv) (o : Nat) :
    (scanReads o ts).getLast? = some (.read .request (o + (encodeOpts ts).length) 1) := by
  induction ts generalizing o with
  | nil => rfl
  | cons t ts ih =>
      rw [scanReads, List.getLast?_append, ih, encodeOpts_cons, List.length_append, Nat.add_assoc]
      rfl

/-- A field in the payload is in memory. -/
theorem Pbuf.HasField.mem_drop {p : Pbuf} {os : List FieldOpt} (h : p.HasField os) :
    ∃ rest, p.mem.drop ofsOptions = encodeField os ++ OPT_END :: rest := by
  obtain ⟨rest, hrest⟩ := h
  have hle : ofsOptions ≤ p.payload.length := by
    have hlen := congrArg List.length hrest
    simp only [List.length_drop, List.length_append, List.length_cons] at hlen
    omega
  refine ⟨rest ++ p.behind, ?_⟩
  unfold Pbuf.mem
  rw [List.drop_append_of_le_length hle, hrest]
  simp

/-- A scan that implements the grammar has read the PADs away. -/
theorem ScansGrammar.padsHarmless {p : Pbuf} {os : List FieldOpt} (hfield : p.HasField os)
    (h : ScansGrammar p os) : PadsHarmless os := by
  obtain ⟨rest, hrest⟩ := hfield.mem_drop
  -- the scan returned, so it read some closed list
  obtain ⟨ts, rest', hts, haddr⟩ := closed_of_scan (h.result bootServer)
  have hstop := h.stop bootServer
  rw [scan_closed hts, getLast?_scanReads] at hstop
  -- it ends where the field does
  have hlen : (encodeOpts ts).length = (encodeField os).length := by
    injection hstop with hread
    injection hread with _ hofs _
    omega
  refine ⟨ts, ?_, haddr⟩
  exact (List.append_inj (hts.symm.trans hrest) hlen).1

/-- **The scan implements the grammar exactly where it reads the PADs away.** -/
theorem scan_grammar_iff {p : Pbuf} {os : List FieldOpt} (hfield : p.HasField os) :
    ScansGrammar p os ↔ PadsHarmless os := by
  constructor
  · exact fun h => h.padsHarmless hfield
  · rintro ⟨ts, henc, haddr⟩
    obtain ⟨rest, hrest⟩ := hfield.mem_drop
    rw [← henc] at hrest
    constructor
    · intro s
      rw [scan_closed hrest, haddr]
    · intro s
      rw [scan_closed hrest, getLast?_scanReads, henc]

/-! ## §3. Which PADs are harmless. -/

/-- PADs come in pairs. -/
inductive PadPairs : List FieldOpt → Prop
  | nil : PadPairs []
  | tlv (t : Tlv) (hcode : t.code ≠ OPT_PAD) {os : List FieldOpt} (h : PadPairs os) :
      PadPairs (.tlv t hcode :: os)
  | pads {os : List FieldOpt} (h : PadPairs os) : PadPairs (.pad :: .pad :: os)

/-- Two PADs read as one option: the second is the length of the first. -/
def padPair : Tlv where
  code := OPT_PAD
  data := []
  code_ne_end := by decide
  data_le := by simp

/-- The list that the scan reads in place of paired PADs. -/
theorem PadPairs.read {os : List FieldOpt} (h : PadPairs os) :
    ∃ ts, encodeOpts ts = encodeField os
      ∧ lastReqAddr ts = lastReqAddr (os.filterMap FieldOpt.tlv?) := by
  induction h with
  | nil => exact ⟨[], rfl, rfl⟩
  | @tlv t hcode os _ ih =>
      obtain ⟨ts, henc, haddr⟩ := ih
      refine ⟨t :: ts, ?_, ?_⟩
      · show t.bytes ++ encodeOpts ts = t.bytes ++ encodeField os
        rw [henc]
      · show lastReqAddr (t :: ts) = lastReqAddr (t :: os.filterMap FieldOpt.tlv?)
        unfold lastReqAddr at haddr ⊢
        rw [List.filterMap_cons, List.filterMap_cons]
        cases t.reqAddr? with
        | none => exact haddr
        | some a =>
            show (a :: _).getLast? = (a :: _).getLast?
            rw [List.getLast?_cons, List.getLast?_cons, haddr]
  | @pads os _ ih =>
      obtain ⟨ts, henc, haddr⟩ := ih
      refine ⟨padPair :: ts, ?_, ?_⟩
      · show padPair.bytes ++ encodeOpts ts = [OPT_PAD, OPT_PAD] ++ encodeField os
        rw [henc]
        rfl
      · -- a PAD asks for no address
        have hnone : padPair.reqAddr? = none := by simp [Tlv.reqAddr?, padPair]
        unfold lastReqAddr at haddr ⊢
        rw [List.filterMap_cons, hnone]
        exact haddr

/-- **Paired PADs are harmless.** -/
theorem PadsHarmless.of_pairs {os : List FieldOpt} (h : PadPairs os) : PadsHarmless os := by
  obtain ⟨ts, henc, haddr⟩ := h.read
  exact ⟨ts, henc, by rw [haddr]; rfl⟩

/-- No option is the beginning of another one. -/
theorem Tlv.bytes_append_inj {t u : Tlv} {bs cs : List UInt8}
    (h : t.bytes ++ bs = u.bytes ++ cs) : t = u ∧ bs = cs := by
  obtain ⟨hcode, htail⟩ := List.cons.inj h
  obtain ⟨hlen, hdata⟩ := List.cons.inj htail
  have hsize : t.data.length = u.data.length := by
    rw [← t.lenByte_toNat, ← u.lenByte_toNat, hlen]
  obtain ⟨hbytes, hrest⟩ := List.append_inj hdata hsize
  cases t
  cases u
  simp only [Tlv.mk.injEq]
  exact ⟨⟨hcode, hbytes⟩, hrest⟩

/-- **A list of options is read in one way**, also at the front of other bytes. -/
theorem encodeOpts_append_inv {ts us : List Tlv} {bs : List UInt8}
    (h : encodeOpts ts = encodeOpts us ++ bs) : ∃ vs, ts = us ++ vs ∧ encodeOpts vs = bs := by
  induction us generalizing ts with
  | nil => exact ⟨ts, rfl, h⟩
  | cons u us ih =>
      cases ts with
      | nil =>
          have hlen := congrArg List.length h
          rw [encodeOpts_cons, List.length_append, List.length_append, u.bytes_length] at hlen
          simp only [encodeOpts_nil, List.length_nil] at hlen
          omega
      | cons t ts =>
          rw [encodeOpts_cons, encodeOpts_cons, List.append_assoc] at h
          obtain ⟨rfl, hrest⟩ := Tlv.bytes_append_inj h
          obtain ⟨vs, rfl, hvs⟩ := ih hrest
          exact ⟨vs, rfl, hvs⟩

/-- **One PAD more in front of END is not**: the scan takes END for its length. -/
theorem not_padsHarmless_of_odd {os : List FieldOpt} (h : PadPairs os) :
    ¬ PadsHarmless (os ++ [.pad]) := by
  rintro ⟨ts, henc, -⟩
  obtain ⟨us, hus, -⟩ := h.read
  have hsplit : encodeOpts ts = encodeOpts us ++ [OPT_PAD] := by
    rw [henc, hus]
    simp [encodeField, FieldOpt.bytes]
  obtain ⟨vs, -, hvs⟩ := encodeOpts_append_inv hsplit
  -- an option has two bytes at least
  cases vs with
  | nil => exact absurd hvs (by simp)
  | cons v vs =>
      have hlen := congrArg List.length hvs
      rw [encodeOpts_cons, List.length_append, v.bytes_length, List.length_singleton] at hlen
      omega

/-! ## §4. Sample fields. -/

/-- A message with a given options field. -/
theorem clientMsg_hasField (ciaddr : Ip4Addr) (mac : EthAddr) (os : List FieldOpt) :
    (clientMsg ciaddr mac (encodeField os ++ [OPT_END])).HasField os :=
  ⟨[], clientMsg_options ciaddr mac _⟩

/-- A REQUEST with two PADs in front of its option 50. -/
def pairedPads : List FieldOpt :=
  [.tlv (msgTypeOpt DHCPREQUEST) (by decide), .pad, .pad,
    .tlv (reqIpOpt #v[192, 168, 7, 11]) (by decide)]

/-- Its scan finds the address. -/
theorem scan_grammar_iff_paired :
    (clientMsg anyAddr macA (encodeField pairedPads ++ [OPT_END])).HasField pairedPads
      ∧ ScansGrammar (clientMsg anyAddr macA (encodeField pairedPads ++ [OPT_END])) pairedPads := by
  have hfield := clientMsg_hasField anyAddr macA pairedPads
  have hpairs : PadPairs pairedPads := .tlv _ _ (.pads (.tlv _ _ .nil))
  exact ⟨hfield, (scan_grammar_iff hfield).mpr (.of_pairs hpairs)⟩

/-- A REQUEST with one PAD in front of END: the scan does not stop there. -/
theorem pad_before_end_missed :
    ∃ os p, os = [.tlv (msgTypeOpt DHCPREQUEST) (by decide), .pad]
      ∧ p = clientMsg anyAddr macA (encodeField os ++ [OPT_END])
      ∧ p.HasField os ∧ ¬ ScansGrammar p os := by
  have hfield := clientMsg_hasField anyAddr macA
    [.tlv (msgTypeOpt DHCPREQUEST) (by decide), .pad]
  refine ⟨_, _, rfl, rfl, hfield, ?_⟩
  intro hscans
  exact not_padsHarmless_of_odd (.tlv (msgTypeOpt DHCPREQUEST) (by decide) .nil)
    (hscans.padsHarmless hfield)

end PicoosLwip.Dhcps
