/-
  PicoosLwip.Dhcps.Options — the option helpers of dhcps.c and the option scan
  of `handleRequest`.

  The scan walks a pointer over the request: code, length, data, next option.
  Its only exit is the byte 255 at an option position; it never looks at
  `p->len`.  `Tlv` is the grammar it walks, and the two main results tie the
  loop to that grammar in both directions:

    * `scanOptions_closed`  — over an option list closed by END the loop returns
      the data of the last option 50 of length 4;
    * `closed_of_scan_in`   — a scan that stays inside the payload has read such
      a list.
-/
import PicoosLwip.Dhcps.Types

namespace PicoosLwip.Dhcps

open PicoosLwip.Framework

/-! ## §1. Reading options. -/

/-- `opt[0]` -/
def getOption (p : Pbuf) (optPtr : Nat) : DhcpsM UInt8 := loadByte .request p.mem optPtr

/-- `opt[1]` -/
def getOptionLen (p : Pbuf) (optPtr : Nat) : DhcpsM UInt8 := loadByte .request p.mem (optPtr + 1)

/-- `opt + 2` -/
def getOptionData (optPtr : Nat) : Nat := optPtr + 2

/-- `opt + opt[1] + 2` -/
def nextOption (p : Pbuf) (optPtr : Nat) : DhcpsM Nat := do
  let len ← getOptionLen p optPtr
  pure (optPtr + len.toNat + 2)

/-- The `while` loop of `handleRequest`: which IP is the client requesting? -/
def scanOptions (p : Pbuf) : Nat → Nat → Ip4Addr → DhcpsM Ip4Addr
  | 0, _, _ => Cmd.fault .outOfFuel
  | fuel + 1, optPtr, reqAddr => do
      let opt ← getOption p optPtr
      if opt = OPT_END then
        pure reqAddr
      else
        let len ← getOptionLen p optPtr
        -- the `switch` reads the code a second time
        let opt ← getOption p optPtr
        let reqAddr ←
          if opt = OPT_REQ_IP ∧ len = 4 then load .request p.mem (getOptionData optPtr) 4
          else pure reqAddr
        let optPtr ← nextOption p optPtr
        scanOptions p fuel optPtr reqAddr

/-- A loop bound that the scan of `p` can never use up
(`scanOptions_ne_outOfFuel`). -/
def scanFuel (p : Pbuf) : Nat := p.mem.length + 1

/-! ## §2. Writing options. -/

/-- A reply under construction and `option_ptr` into it. -/
structure Cursor where
  buf : List UInt8
  ptr : Nat

/-- `*optPtr++ = …` for each byte of `bs`. -/
def Cursor.put (c : Cursor) (bs : List UInt8) : Cursor :=
  ⟨poke c.buf c.ptr bs, c.ptr + bs.length⟩

/-- Code, length, and the time with its high byte first. -/
def addOptionTime (c : Cursor) (opt : UInt8) (t : UInt32) : Cursor :=
  let b₃ := (t / (256 * 256 * 256)).toUInt8
  let t := t % (256 * 256 * 256)
  let b₂ := (t / (256 * 256)).toUInt8
  let t := t % (256 * 256)
  let b₁ := (t / 256).toUInt8
  let t := t % 256
  c.put [opt, 4, b₃, b₂, b₁, t.toUInt8]

/-- Code, length, and the address. -/
def addOptionIP (c : Cursor) (opt : UInt8) (ip : Ip4Addr) : Cursor :=
  c.put ([opt, 4] ++ ip.toList)

/-- Code, length, and the byte. -/
def addOptionByte (c : Cursor) (opt val : UInt8) : Cursor :=
  c.put [opt, 1, val]

/-- Puts in a row are one put. -/
theorem Cursor.foldl_put : ∀ (bss : List (List UInt8)) (c : Cursor),
    c.ptr + bss.flatten.length ≤ c.buf.length → bss.foldl Cursor.put c = c.put bss.flatten
  | [], c, _ => by simp [Cursor.put]
  | bs :: bss, c, h => by
      rw [List.flatten_cons, List.length_append] at h
      have hlen : (c.put bs).buf.length = c.buf.length := poke_length (by omega)
      have hptr : (c.put bs).ptr = c.ptr + bs.length := rfl
      rw [List.foldl_cons, Cursor.foldl_put bss (c.put bs) (by rw [hlen, hptr]; omega),
          List.flatten_cons]
      simp only [Cursor.put, Cursor.mk.injEq]
      constructor
      · -- the buffers agree: two stores in a row are one
        exact poke_append_poke (by omega)
      · rw [List.length_append, Nat.add_assoc]

/-! ## §3. The option grammar. -/

/-- One code/length/data option; no option has the code END. -/
structure Tlv where
  code : UInt8
  data : List UInt8
  code_ne_end : code ≠ OPT_END
  data_le : data.length ≤ 255

/-- The bytes of an option. -/
def Tlv.bytes (t : Tlv) : List UInt8 := t.code :: UInt8.ofNat t.data.length :: t.data

/-- Options in a row. -/
def encodeOpts (ts : List Tlv) : List UInt8 := ts.flatMap Tlv.bytes

/-- The address a "requested IP" option of length 4 carries. -/
def Tlv.reqAddr? (t : Tlv) : Option Ip4Addr :=
  if h : t.code = OPT_REQ_IP ∧ t.data.length = 4 then some ⟨t.data.toArray, by simp [h.2]⟩
  else none

/-- The last such address of a list. -/
def lastReqAddr (ts : List Tlv) : Option Ip4Addr := (ts.filterMap Tlv.reqAddr?).getLast?

/-- The bytes start with an option list closed by END. -/
def Closed (bs : List UInt8) : Prop := ∃ ts rest, bs = encodeOpts ts ++ OPT_END :: rest

@[simp] theorem encodeOpts_nil : encodeOpts [] = [] := rfl

@[simp] theorem encodeOpts_cons (t : Tlv) (ts : List Tlv) :
    encodeOpts (t :: ts) = t.bytes ++ encodeOpts ts := rfl

theorem Tlv.bytes_length (t : Tlv) : t.bytes.length = t.data.length + 2 := rfl

/-- The length byte is the length. -/
theorem Tlv.lenByte_toNat (t : Tlv) : (UInt8.ofNat t.data.length).toNat = t.data.length := by
  have := t.data_le
  simp
  omega

/-- Only an option 50 of four bytes asks for an address. -/
theorem Tlv.reqAddr?_eq_some {t : Tlv} {a : Ip4Addr} (h : t.reqAddr? = some a) :
    t.code = OPT_REQ_IP ∧ t.data.length = 4 ∧ t.data = a.toList := by
  unfold Tlv.reqAddr? at h
  split at h
  next hc =>
    obtain rfl := Option.some.inj h
    exact ⟨hc.1, hc.2, by simp⟩
  next => exact absurd h (by simp)

/-- Any other one does not. -/
theorem Tlv.reqAddr?_eq_none {t : Tlv} (h : t.reqAddr? = none) :
    ¬ (t.code = OPT_REQ_IP ∧ t.data.length = 4) := by
  unfold Tlv.reqAddr? at h
  split at h
  next => exact absurd h (by simp)
  next hc => exact hc

/-- Later options go before earlier ones. -/
theorem lastReqAddr_cons (t : Tlv) (ts : List Tlv) (a : Ip4Addr) :
    (lastReqAddr (t :: ts)).getD a = (lastReqAddr ts).getD (t.reqAddr?.getD a) := by
  unfold lastReqAddr
  rw [List.filterMap_cons]
  cases t.reqAddr? with
  | none => rfl
  | some b => simp [List.getLast?_cons]

/-! ## §4. One byte at a time. -/

/-- The code of a mapped option. -/
theorem getOption_some {p : Pbuf} {o : Nat} {b : UInt8} (h : p.mem[o]? = some b) (s : Server) :
    getOption p o s = ⟨[.read .request o 1], s, .ok b⟩ := loadByte_some h s

/-- There is no code where there is no memory. -/
theorem getOption_none {p : Pbuf} {o : Nat} (h : p.mem[o]? = none) (s : Server) :
    getOption p o s = ⟨[.read .request o 1], s, .error .unmapped⟩ := loadByte_none h s

theorem getOptionLen_eq (p : Pbuf) (o : Nat) : getOptionLen p o = getOption p (o + 1) := rfl

/-! ## §5. One round of the scan. -/

/-- Where the scan stops. -/
theorem scanOptions_end {p : Pbuf} {o : Nat} (h : p.mem[o]? = some OPT_END) (fuel : Nat)
    (a : Ip4Addr) (s : Server) :
    scanOptions p (fuel + 1) o a s = ⟨[.read .request o 1], s, .ok a⟩ := by
  simp [scanOptions, getOption_some h]

/-- What a round makes of `reqAddr` at an option with code `c` and length `l`. -/
def roundAddr (p : Pbuf) (o : Nat) (c l : UInt8) (a : Ip4Addr) : DhcpsM Ip4Addr :=
  if c = OPT_REQ_IP ∧ l = 4 then load .request p.mem (getOptionData o) 4 else pure a

/-- A round at code `c` and length `l`: four header reads around `roundAddr`,
and on to the byte behind the option. -/
theorem scanOptions_round {p : Pbuf} {o : Nat} {c l : UInt8} (hc : p.mem[o]? = some c)
    (hne : c ≠ OPT_END) (hl : p.mem[o + 1]? = some l) (fuel : Nat) (a : Ip4Addr) (s : Server) :
    scanOptions p (fuel + 1) o a s
      = ((roundAddr p o c l a s).andThen fun b =>
          Cmd.logged [.read .request (o + 1) 1] (scanOptions p fuel (o + l.toNat + 2) b)).after
            [.read .request o 1, .read .request (o + 1) 1, .read .request o 1] := by
  unfold roundAddr
  by_cases hreq : c = OPT_REQ_IP ∧ l = 4
  · obtain ⟨rfl, rfl⟩ := hreq
    cases hv : peekVec p.mem (getOptionData o) 4 <;>
      simp [scanOptions, nextOption, getOptionLen_eq, getOption_some hc, getOption_some hl, hne, hv]
  · simp [scanOptions, nextOption, getOptionLen_eq, getOption_some hc, getOption_some hl, hne,
      hreq]

/-- The reads of one round over the option `t` at `o`. -/
def tlvReads (o : Nat) (t : Tlv) : List Event :=
  [.read .request o 1, .read .request (o + 1) 1, .read .request o 1]
    ++ (if t.reqAddr?.isSome then [.read .request (getOptionData o) 4] else [])
    ++ [.read .request (o + 1) 1]

/-- Over a well-formed option a round stays in memory. -/
theorem roundAddr_tlv {p : Pbuf} {o : Nat} {t : Tlv} {rest : List UInt8}
    (h : p.mem.drop o = t.bytes ++ rest) (a : Ip4Addr) (s : Server) :
    roundAddr p o t.code (UInt8.ofNat t.data.length) a s
      = ⟨if t.reqAddr?.isSome then [.read .request (getOptionData o) 4] else [], s,
          .ok (t.reqAddr?.getD a)⟩ := by
  have hlen4 : UInt8.ofNat t.data.length = 4 ↔ t.data.length = 4 := by
    rw [← UInt8.toNat_inj, t.lenByte_toNat]
    rfl
  unfold roundAddr
  simp only [hlen4]
  cases hreq : t.reqAddr? with
  | none =>
      rw [if_neg (Tlv.reqAddr?_eq_none hreq)]
      rfl
  | some b =>
      obtain ⟨hc, hl, hd⟩ := Tlv.reqAddr?_eq_some hreq
      -- the data lie two bytes behind the code
      have hdata : peekVec p.mem (getOptionData o) 4 = some b := by
        have hdrop : p.mem.drop (o + 2) = t.data ++ rest := by
          rw [← List.drop_drop, h]
          rfl
        rw [peekVec_eq_some_iff, ← hd]
        unfold peek getOptionData
        rw [hdrop, ← hl, List.take_left]
      rw [if_pos ⟨hc, hl⟩, load_some hdata]
      rfl

/-- Its first two bytes. -/
theorem Tlv.head_of_drop {mem : List UInt8} {o : Nat} {t : Tlv} {rest : List UInt8}
    (h : mem.drop o = t.bytes ++ rest) :
    mem[o]? = some t.code ∧ mem[o + 1]? = some (UInt8.ofNat t.data.length) := by
  constructor
  · have hfirst := congrArg (·[0]?) h
    simpa [Tlv.bytes] using hfirst
  · have hsecond := congrArg (·[1]?) h
    simpa [Tlv.bytes] using hsecond

/-- One round over an option moves the pointer right behind it. -/
theorem scanOptions_tlv {p : Pbuf} {o : Nat} {t : Tlv} {rest : List UInt8}
    (h : p.mem.drop o = t.bytes ++ rest) (fuel : Nat) (a : Ip4Addr) (s : Server) :
    scanOptions p (fuel + 1) o a s
      = (scanOptions p fuel (o + t.bytes.length) (t.reqAddr?.getD a) s).after (tlvReads o t) := by
  obtain ⟨hcode, hlen⟩ := Tlv.head_of_drop h
  have hnext : o + (UInt8.ofNat t.data.length).toNat + 2 = o + t.bytes.length := by
    rw [t.lenByte_toNat, t.bytes_length]
    omega
  rw [scanOptions_round hcode t.code_ne_end hlen, roundAddr_tlv h, Outcome.andThen_ok, hnext]
  simp [tlvReads]

/-! ## §6. The scan of a closed option list. -/

/-- The reads of the whole scan of `ts` at `o`. -/
def scanReads : Nat → List Tlv → List Event
  | o, [] => [.read .request o 1]
  | o, t :: ts => tlvReads o t ++ scanReads (o + t.bytes.length) ts

/-- **The scan implements the grammar**: over options closed by END it returns,
at that END, the last requested address. -/
theorem scanOptions_closed (p : Pbuf) (rest : List UInt8) (s : Server) :
    ∀ (ts : List Tlv) (fuel o : Nat) (a : Ip4Addr),
      p.mem.drop o = encodeOpts ts ++ OPT_END :: rest → ts.length < fuel →
      scanOptions p fuel o a s = ⟨scanReads o ts, s, .ok ((lastReqAddr ts).getD a)⟩
  | [], fuel + 1, o, a, h, _ => by
      -- nothing left but END
      have hend : p.mem[o]? = some OPT_END := by
        have := congrArg (·[0]?) h
        simpa using this
      rw [scanOptions_end hend]
      rfl
  | t :: ts, fuel + 1, o, a, h, hf => by
      rw [encodeOpts_cons, List.append_assoc] at h
      -- the round over `t` leaves the pointer at the rest of the list
      have hdrop : p.mem.drop (o + t.bytes.length) = encodeOpts ts ++ OPT_END :: rest := by
        rw [← List.drop_drop, h, List.drop_left]
      rw [scanOptions_tlv h, scanOptions_closed p rest s ts fuel _ _ hdrop (by simpa using hf),
          lastReqAddr_cons]
      rfl

/-- Each option takes at least two bytes. -/
theorem length_le_encodeOpts (ts : List Tlv) : ts.length ≤ (encodeOpts ts).length := by
  induction ts with
  | nil => simp
  | cons t ts ih =>
      rw [encodeOpts_cons, List.length_append, List.length_cons, t.bytes_length]
      omega

/-- The loop bound of the model covers every option list that fits in memory. -/
theorem scanOptions_closed' {p : Pbuf} {ts : List Tlv} {rest : List UInt8} {o : Nat}
    (h : p.mem.drop o = encodeOpts ts ++ OPT_END :: rest) (a : Ip4Addr) (s : Server) :
    scanOptions p (scanFuel p) o a s = ⟨scanReads o ts, s, .ok ((lastReqAddr ts).getD a)⟩ := by
  apply scanOptions_closed p rest s ts _ _ _ h
  have hle := length_le_encodeOpts ts
  have hlen := congrArg List.length h
  simp only [List.length_drop, List.length_append, List.length_cons] at hlen
  unfold scanFuel
  omega

/-! ## §7. Which bytes a scan reads. -/

/-- The offsets into the request that an event reads. -/
def Event.requestOffsets : Event → List Nat
  | .read .request ofs n => List.range' ofs n
  | _ => []

/-- Everything the events read of the request lies below `n`. -/
def ReadsBelow (n : Nat) (es : List Event) : Prop := ∀ e ∈ es, ∀ k ∈ e.requestOffsets, k < n

/-- Two logs in a row. -/
theorem ReadsBelow.append {n : Nat} {es es' : List Event} (h : ReadsBelow n es)
    (h' : ReadsBelow n es') : ReadsBelow n (es ++ es') := by
  intro e he
  rcases List.mem_append.mp he with he | he
  · exact h e he
  · exact h' e he

/-- The earlier part of a log. -/
theorem ReadsBelow.left {n : Nat} {es es' : List Event} (h : ReadsBelow n (es ++ es')) :
    ReadsBelow n es := fun e he => h e (List.mem_append_left _ he)

/-- The later part of a log. -/
theorem ReadsBelow.right {n : Nat} (es : List Event) {es' : List Event}
    (h : ReadsBelow n (es ++ es')) : ReadsBelow n es' :=
  fun e he => h e (List.mem_append_right _ he)

/-- One read of the request. -/
theorem readsBelow_read_iff {n ofs m : Nat} (hm : 0 < m) :
    ReadsBelow n [.read .request ofs m] ↔ ofs + m ≤ n := by
  constructor
  · intro h
    have := h _ (List.mem_singleton.mpr rfl) (ofs + m - 1)
      (by rw [Event.requestOffsets, List.mem_range'_1]; omega)
    omega
  · intro h e he k hk
    obtain rfl := List.mem_singleton.mp he
    rw [Event.requestOffsets, List.mem_range'_1] at hk
    omega

/-- The scan of a closed list stays in front of the byte behind its END. -/
theorem scanReads_below : ∀ (ts : List Tlv) (o : Nat),
    ReadsBelow (o + (encodeOpts ts).length + 1) (scanReads o ts)
  | [], o => (readsBelow_read_iff (by omega)).mpr (by simp)
  | t :: ts, o => by
      have hlen := t.bytes_length
      rw [encodeOpts_cons, List.length_append]
      apply ReadsBelow.append
      · intro e he k hk
        simp only [tlvReads, List.mem_append, List.mem_cons, List.not_mem_nil, or_false] at he
        rcases he with (he | he) | he
        · rcases he with rfl | rfl | rfl <;>
            simp only [Event.requestOffsets, List.mem_range'_1] at hk <;> omega
        · cases hreq : t.reqAddr? with
          | none => simp [hreq] at he
          | some b =>
              obtain rfl : e = .read .request (getOptionData o) 4 := by simpa [hreq] using he
              have hdata := (Tlv.reqAddr?_eq_some hreq).2.1
              simp only [Event.requestOffsets, List.mem_range'_1, getOptionData] at hk
              omega
        · obtain rfl := he
          simp only [Event.requestOffsets, List.mem_range'_1] at hk
          omega
      · have := scanReads_below ts (o + t.bytes.length)
        rw [show o + (t.bytes.length + (encodeOpts ts).length) + 1
              = o + t.bytes.length + (encodeOpts ts).length + 1 by omega]
        exact this

/-! ## §8. What a round can do, for any memory at all. -/

/-- The outcomes of one more round of the scan at `o`. -/
inductive ScanRound (p : Pbuf) (fuel o : Nat) (a : Ip4Addr) (s : Server) :
    Outcome Fault Server Event Ip4Addr → Prop
  /-- No option code can be read. -/
  | unmapped (h : p.mem[o]? = none) :
      ScanRound p fuel o a s ⟨[.read .request o 1], s, .error .unmapped⟩
  /-- The code is END. -/
  | stop (h : p.mem[o]? = some OPT_END) :
      ScanRound p fuel o a s ⟨[.read .request o 1], s, .ok a⟩
  /-- The length byte cannot be read. -/
  | noLength (h : p.mem[o + 1]? = none) :
      ScanRound p fuel o a s
        ⟨[.read .request o 1, .read .request (o + 1) 1], s, .error .unmapped⟩
  /-- The four bytes of a requested address cannot be read. -/
  | noData (h : p.mem.length < o + 6) :
      ScanRound p fuel o a s
        ⟨[.read .request o 1, .read .request (o + 1) 1, .read .request o 1,
          .read .request (getOptionData o) 4], s, .error .unmapped⟩
  /-- On to the next option. -/
  | next (c l : UInt8) (b : Ip4Addr) (es : List Event) (hc : p.mem[o]? = some c)
      (hne : c ≠ OPT_END) (hl : p.mem[o + 1]? = some l)
      (hes : ∀ e ∈ es, ∃ k n, e = .read .request k n) :
      ScanRound p fuel o a s
        ((scanOptions p fuel (o + l.toNat + 2) b s).after
          ([.read .request o 1, .read .request (o + 1) 1] ++ es))

/-- **What one round of the scan does.** -/
theorem scanOptions_cases (p : Pbuf) (fuel o : Nat) (a : Ip4Addr) (s : Server) :
    ScanRound p fuel o a s (scanOptions p (fuel + 1) o a s) := by
  cases hc : p.mem[o]? with
  | none =>
      have : scanOptions p (fuel + 1) o a s = ⟨[.read .request o 1], s, .error .unmapped⟩ := by
        simp [scanOptions, getOption_none hc]
      rw [this]
      exact .unmapped hc
  | some c =>
      by_cases hend : c = OPT_END
      · rw [hend] at hc
        rw [scanOptions_end hc]
        exact .stop hc
      cases hl : p.mem[o + 1]? with
      | none =>
          have : scanOptions p (fuel + 1) o a s
              = ⟨[.read .request o 1, .read .request (o + 1) 1], s, .error .unmapped⟩ := by
            simp [scanOptions, getOption_some hc, getOptionLen_eq, getOption_none hl, hend]
          rw [this]
          exact .noLength hl
      | some l =>
          rw [scanOptions_round hc hend hl]
          unfold roundAddr
          split
          next =>
            -- the option is 50, and its four bytes are read as they stand
            cases hv : peekVec p.mem (getOptionData o) 4 with
            | none =>
                rw [load_none hv]
                refine .noData ?_
                by_contra hlt
                obtain ⟨v, hsome, _⟩ := peekVec_of_le
                  (show getOptionData o + 4 ≤ p.mem.length by unfold getOptionData; omega)
                rw [hv] at hsome
                exact absurd hsome (by simp)
            | some v =>
                rw [load_some hv, Outcome.andThen_ok, Cmd.logged_apply, Outcome.after_after,
                    Outcome.after_after]
                exact .next c l v
                  [.read .request o 1, .read .request (getOptionData o) 4,
                    .read .request (o + 1) 1] hc hend hl (by simp)
          next =>
            -- any other option is passed over by its length
            rw [Cmd.pure_apply, Outcome.andThen_ok, Cmd.logged_apply, Outcome.after_after,
                Outcome.after_after]
            exact .next c l a [.read .request o 1, .read .request (o + 1) 1] hc hend hl (by simp)

/-- The loop bound of the model is never what stops the scan. -/
theorem scanOptions_ne_outOfFuel (p : Pbuf) (s : Server) :
    ∀ (fuel o : Nat) (a : Ip4Addr), p.mem.length - o < fuel →
      (scanOptions p fuel o a s).result ≠ .error .outOfFuel := by
  intro fuel
  induction fuel with
  | zero => intro o a h; omega
  | succ fuel ih =>
      intro o a h
      have hround := scanOptions_cases p fuel o a s
      generalize scanOptions p (fuel + 1) o a s = out at hround
      cases hround with
      | unmapped => simp
      | stop => simp
      | noLength => simp
      | noData => simp
      | next c l b es hc =>
          -- each round moves the pointer by two at least
          have hlt := (List.getElem?_eq_some_iff.mp hc).1
          exact ih _ b (by omega)

/-- The event is a read of the request. -/
def Event.IsRequestRead (e : Event) : Prop := ∃ k n, e = .read .request k n

/-- It reads the request and nothing else. -/
theorem getOption_emits (p : Pbuf) (o : Nat) : Cmd.Emits Event.IsRequestRead (getOption p o) := by
  refine Cmd.Emits.bind (Cmd.Emits.emit (show Event.IsRequestRead _ from ⟨o, 1, rfl⟩)) ?_
  intro _
  split
  · exact Cmd.Emits.pure _ _
  · exact Cmd.Emits.fault _ _

/-- So does a longer read. -/
theorem load_emits (mem : List UInt8) (o n : Nat) :
    Cmd.Emits Event.IsRequestRead (load .request mem o n) := by
  refine Cmd.Emits.bind (Cmd.Emits.emit (show Event.IsRequestRead _ from ⟨o, n, rfl⟩)) ?_
  intro _
  split
  · exact Cmd.Emits.pure _ _
  · exact Cmd.Emits.fault _ _

/-- The scan only reads the request. -/
theorem scanOptions_emits (p : Pbuf) (fuel o : Nat) (a : Ip4Addr) :
    Cmd.Emits Event.IsRequestRead (scanOptions p fuel o a) := by
  induction fuel generalizing o a with
  | zero => exact Cmd.Emits.fault _ _
  | succ fuel ih =>
      apply Cmd.Emits.bind (getOption_emits p o)
      intro opt
      split
      · exact Cmd.Emits.pure _ _
      · -- behind the requested address: the length once more, and the next round
        have hrest : ∀ b, Cmd.Emits Event.IsRequestRead
            (nextOption p o >>= fun optPtr => scanOptions p fuel optPtr b) := by
          intro b
          apply Cmd.Emits.bind
          · exact Cmd.Emits.bind (getOption_emits p (o + 1)) fun _ => Cmd.Emits.pure _ _
          · intro optPtr
            exact ih optPtr b
        apply Cmd.Emits.bind (getOption_emits p (o + 1))
        intro len
        apply Cmd.Emits.bind (getOption_emits p o)
        intro opt
        dsimp only
        split
        · exact Cmd.Emits.bind (load_emits _ _ _) hrest
        · exact hrest a

/-- The state is left alone. -/
theorem getOption_frames (p : Pbuf) (o : Nat) : Cmd.Frames id (getOption p o) := by
  apply Cmd.Frames.bind (Cmd.Frames.emit _ _)
  intro _
  split
  · exact Cmd.Frames.pure _ _
  · exact Cmd.Frames.fault _ _

/-- So it is by a longer read. -/
theorem load_frames (mem : List UInt8) (o n : Nat) :
    Cmd.Frames id (load .request mem o n) := by
  apply Cmd.Frames.bind (Cmd.Frames.emit _ _)
  intro _
  split
  · exact Cmd.Frames.pure _ _
  · exact Cmd.Frames.fault _ _

/-- The scan leaves the server's globals alone. -/
theorem scanOptions_frames (p : Pbuf) (fuel o : Nat) (a : Ip4Addr) :
    Cmd.Frames id (scanOptions p fuel o a) := by
  induction fuel generalizing o a with
  | zero => exact Cmd.Frames.fault _ _
  | succ fuel ih =>
      apply Cmd.Frames.bind (getOption_frames p o)
      intro opt
      split
      · exact Cmd.Frames.pure _ _
      · -- as for the reads: the length once more, and the next round
        have hrest : ∀ b, Cmd.Frames id
            (nextOption p o >>= fun optPtr => scanOptions p fuel optPtr b) := by
          intro b
          apply Cmd.Frames.bind
          · exact Cmd.Frames.bind (getOption_frames p (o + 1)) fun _ => Cmd.Frames.pure _ _
          · intro optPtr
            exact ih optPtr b
        apply Cmd.Frames.bind (getOption_frames p (o + 1))
        intro len
        apply Cmd.Frames.bind (getOption_frames p o)
        intro opt
        dsimp only
        split
        · exact Cmd.Frames.bind (load_frames _ _ _) hrest
        · exact hrest a

/-! ## §9. A scan that stays inside the payload. -/

/-- A closed list has an END. -/
theorem Closed.ne_nil {bs : List UInt8} (h : Closed bs) : bs ≠ [] := by
  obtain ⟨ts, rest, rfl⟩ := h
  simp

/-- One more option in front of a closed list. -/
theorem Closed.cons {payload : List UInt8} {o : Nat} {c l : UInt8} (hc : payload[o]? = some c)
    (hne : c ≠ OPT_END) (hl : payload[o + 1]? = some l)
    (h : Closed (payload.drop (o + l.toNat + 2))) : Closed (payload.drop o) := by
  have hlt : o + l.toNat + 2 < payload.length := by
    by_contra hge
    exact h.ne_nil (List.drop_eq_nil_of_le (by omega))
  obtain ⟨ts, rest, hts⟩ := h
  have hdata : (peek payload (o + 2) l.toNat).length = l.toNat := peek_length_of_le (by omega)
  have hle : l.toNat ≤ 255 := by
    have := l.toNat_lt
    omega
  -- the new option is what stands between the code and the rest
  refine ⟨⟨c, peek payload (o + 2) l.toNat, hne, by omega⟩ :: ts, rest, ?_⟩
  rw [encodeOpts_cons, List.append_assoc, ← hts]
  obtain ⟨ho, rfl⟩ := List.getElem?_eq_some_iff.mp hc
  obtain ⟨ho', rfl⟩ := List.getElem?_eq_some_iff.mp hl
  rw [List.drop_eq_getElem_cons ho, List.drop_eq_getElem_cons ho']
  simp only [Tlv.bytes, hdata, UInt8.ofNat_toNat, List.cons_append]
  congr 2
  unfold peek
  rw [show o + payload[o + 1].toNat + 2 = o + 2 + payload[o + 1].toNat by omega,
      ← List.drop_drop (i := payload[o + 1].toNat), List.take_append_drop]

/-- **A scan that returns has read a closed option list.** -/
theorem closed_of_scan_ok (p : Pbuf) (s : Server) : ∀ (fuel o : Nat) (a b : Ip4Addr),
    (scanOptions p fuel o a s).result = .ok b → Closed (p.mem.drop o) := by
  intro fuel
  induction fuel with
  | zero => intro o a b h; exact absurd h (by simp [scanOptions])
  | succ fuel ih =>
      intro o a b h
      have hround := scanOptions_cases p fuel o a s
      generalize scanOptions p (fuel + 1) o a s = out at hround h
      cases hround with
      | unmapped hc => exact absurd h (by simp)
      | stop hc =>
          obtain ⟨ho, hget⟩ := List.getElem?_eq_some_iff.mp hc
          refine ⟨[], p.mem.drop (o + 1), ?_⟩
          rw [List.drop_eq_getElem_cons ho, hget]
          rfl
      | noLength hl => exact absurd h (by simp)
      | noData hd => exact absurd h (by simp)
      | next c l a' es hc hne hl hes => exact Closed.cons hc hne hl (ih _ a' b h)

/-- **A scan that stays inside the payload has read a closed option list.** -/
theorem closed_of_scan_in (p : Pbuf) (s : Server) : ∀ (fuel o : Nat) (a : Ip4Addr),
    p.len - o < fuel → ReadsBelow p.len (scanOptions p fuel o a s).events →
      Closed (p.payload.drop o) := by
  intro fuel
  induction fuel with
  | zero => intro o a h; omega
  | succ fuel ih =>
      intro o a hfuel hreads
      -- below `p->len` memory is the payload
      have hmem : ∀ k, k < p.len → p.mem[k]? = p.payload[k]? := fun k hk =>
        List.getElem?_append_left hk
      have hround := scanOptions_cases p fuel o a s
      generalize scanOptions p (fuel + 1) o a s = out at hround hreads
      cases hround with
      | unmapped h =>
          have hin := (readsBelow_read_iff (by omega)).mp hreads
          rw [List.getElem?_eq_none_iff] at h
          have := p.len_le_mem
          omega
      | stop h =>
          have hin := (readsBelow_read_iff (by omega)).mp hreads
          rw [hmem o (by omega)] at h
          obtain ⟨ho, hget⟩ := List.getElem?_eq_some_iff.mp h
          refine ⟨[], p.payload.drop (o + 1), ?_⟩
          rw [List.drop_eq_getElem_cons ho, hget]
          rfl
      | noLength h =>
          -- an unmapped byte is behind the payload, and it was read
          have hin := (readsBelow_read_iff (by omega)).mp (ReadsBelow.right [_] hreads)
          rw [List.getElem?_eq_none_iff] at h
          have := p.len_le_mem
          omega
      | noData h =>
          have hin := (readsBelow_read_iff (by omega)).mp
            (ReadsBelow.right [_, _, _] hreads)
          have := p.len_le_mem
          unfold getOptionData at hin
          omega
      | next c l b es hc hne hl hes =>
          rw [Outcome.after_events] at hreads
          have hin := (readsBelow_read_iff (by omega)).mp
            (ReadsBelow.right [_] (ReadsBelow.left (ReadsBelow.left hreads)))
          rw [hmem o (by omega)] at hc
          rw [hmem (o + 1) (by omega)] at hl
          exact Closed.cons hc hne hl (ih _ b (by omega) (ReadsBelow.right _ hreads))

end PicoosLwip.Dhcps
