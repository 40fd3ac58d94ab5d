/-
  PicoosLwip.Netif.BusCycles — what each bus routine does to the pins.

  Between two strobes the pins REST: both strobes are high, the address pins are
  outputs, and an address and a byte of data are in the latch.  Each part of a routine
  is described by what rests before and after it, and by the pulses that the bus has
  seen meanwhile; the routines are their parts in a row.

  Main results:
    * `initPins_idle`, `initPins_silent` — after the pins are set up, they rest, and
      nothing was seen meanwhile if neither strobe was low;
    * `exec_toggleIOW`, `exec_strobeIOR` — one pulse, with address and byte;
    * `exec_cs8900aWrite`, `exec_cs8900aRead`, `exec_cs8900aReadAddrHighFirst`,
      `exec_cs8900aWriteTxBuf`, `exec_cs8900aReadRxBuf` — two pulses each.
-/
import PicoosLwip.Netif.Gpio

namespace PicoosLwip.Netif.Gpio

open PicoosLwip.Framework

/-! ## §1. Registers, field by field. -/

/-- The lines that are set in either. -/
def Fields.or (f g : Fields) : Fields :=
  ⟨f.addr ||| g.addr, f.data ||| g.data, f.ior || g.ior, f.iow || g.iow⟩

/-- The lines of `f` that are not set in `g`. -/
def Fields.clear (f g : Fields) : Fields :=
  ⟨f.addr &&& ~~~g.addr, f.data &&& ~~~g.data, f.ior && !g.ior, f.iow && !g.iow⟩

/-- Setting pins sets each field. -/
theorem fields_or (v w : BitVec 32) : fields (v ||| w) = (fields v).or (fields w) := by
  simp [fields, Fields.or, BitVec.extractLsb'_or]

/-- Clearing pins clears each field. -/
theorem fields_clear (v w : BitVec 32) : fields (v &&& ~~~w) = (fields v).clear (fields w) := by
  have haddr : (~~~w).extractLsb' 4 4 = ~~~(w.extractLsb' 4 4) := by
    ext i hi
    simp
    omega
  have hdata : (~~~w).extractLsb' 16 8 = ~~~(w.extractLsb' 16 8) := by
    ext i hi
    simp
    omega
  simp [fields, Fields.clear, BitVec.extractLsb'_and, haddr, hdata]

/-- An address, shifted to the address pins. -/
theorem fields_port {addr : Nat} (h : addr < 16) :
    fields (BitVec.ofNat 32 addr <<< 4) = ⟨BitVec.ofNat 4 addr, 0, false, false⟩ := by
  have hall : ∀ a : Fin 16,
      fields (BitVec.ofNat 32 a <<< 4) = ⟨BitVec.ofNat 4 a, 0, false, false⟩ := by decide
  exact hall ⟨addr, h⟩

/-- A byte, shifted to the data pins. -/
theorem fields_byte (b : BitVec 8) : fields (b.setWidth 32 <<< 16) = ⟨0, b, false, false⟩ := by
  have haddr : (b.setWidth 32 <<< 16).extractLsb' 4 4 = 0#4 := by
    ext i hi
    simp
    omega
  have hdata : (b.setWidth 32 <<< 16).extractLsb' 16 8 = b := by
    ext i hi
    have hin : 16 + i < 32 ∧ i < 32 := by omega
    simp [BitVec.getLsbD_eq_getElem, hi, hin]
  simp [fields, haddr, hdata]

/-- The low byte of a word, for the data pins. -/
theorem lowByte_mask (d : BitVec 16) :
    (d.setWidth 32 &&& 0xff#32) = (d.extractLsb' 0 8).setWidth 32 := by
  apply BitVec.eq_of_toNat_eq
  have hd : d.toNat % 4294967296 = d.toNat := Nat.mod_eq_of_lt (by omega)
  have hand : d.toNat &&& 255 = d.toNat % 256 := Nat.and_two_pow_sub_one_eq_mod d.toNat 8
  simp
  rw [hd, hand]
  omega

/-- The high byte of a word, for the data pins. -/
theorem highByte_shift (d : BitVec 16) :
    d.setWidth 32 >>> 8 = (d.extractLsb' 8 8).setWidth 32 := by
  apply BitVec.eq_of_toNat_eq
  simp [Nat.shiftRight_eq_div_pow]
  omega

/-- The data pins of two readings, as one word. -/
theorem word_of_pins (low high : BitVec 32) :
    ((low >>> 16 &&& 0xff#32) ||| (high >>> 8 &&& 0xff00#32))
      = ((fields high).data ++ (fields low).data).setWidth 32 := by
  have hlow : ∀ i : Fin 32, (0xff#32).getLsbD i = decide (i.val < 8) := by decide
  have hhigh : ∀ i : Fin 32, (0xff00#32).getLsbD i = decide (8 ≤ i.val ∧ i.val < 16) := by
    decide
  apply BitVec.eq_of_getLsbD_eq
  intro i hi
  rw [BitVec.getLsbD_or, BitVec.getLsbD_and, BitVec.getLsbD_and, hlow ⟨i, hi⟩, hhigh ⟨i, hi⟩,
    BitVec.getLsbD_setWidth, BitVec.getLsbD_append]
  by_cases h8 : i < 8
  · have hnot : ¬ 8 ≤ i := by omega
    simp [fields, hi, h8, hnot]
  · by_cases h16 : i < 16
    · have hsub : i - 8 < 8 := by omega
      have hle : 8 ≤ i := by omega
      have hadd : 16 + (i - 8) = 8 + i := by omega
      simp [fields, hi, h8, h16, hsub, hadd, hle]
    · have hsub : ¬ i - 8 < 8 := by omega
      simp [fields, h8, h16, hsub]

/-- `(uint8_t) (IOPIN >> 16)` -/
theorem byte_of_pins (v : BitVec 32) : (v >>> 16).setWidth 8 = (fields v).data := by
  ext i hi
  simp [fields]

/-- The two bytes of a word have an even address and the next one, on the pins too. -/
theorem port_pins {port : Nat} (heven : port % 2 = 0) (hlt : port < 16) :
    (BitVec.ofNat 4 port ||| 1 = BitVec.ofNat 4 (port + 1))
      ∧ (BitVec.ofNat 4 (port + 1) &&& ~~~1 = BitVec.ofNat 4 port)
      ∧ (BitVec.ofNat 4 port &&& ~~~1 = BitVec.ofNat 4 port) := by
  have hall : ∀ a : Fin 16, a.val % 2 = 0 →
      (BitVec.ofNat 4 a ||| 1 = BitVec.ofNat 4 (a + 1))
        ∧ (BitVec.ofNat 4 (a + 1) &&& ~~~1 = BitVec.ofNat 4 a)
        ∧ (BitVec.ofNat 4 a &&& ~~~1 = BitVec.ofNat 4 a) := by decide
  exact hall ⟨port, hlt⟩ heven

theorem fields_dataPins : fields (0xff#32 <<< 16) = ⟨0, 0xff, false, false⟩ := by decide

theorem fields_addressPins : fields (0xf#32 <<< 4) = ⟨0xf, 0, false, false⟩ := by decide

theorem fields_strobes : fields (IOR ||| IOW) = ⟨0, 0, true, true⟩ := by decide

theorem fields_lowPin : fields (1#32 <<< 4) = ⟨1, 0, false, false⟩ := by decide

/-- All bits replaced. -/
theorem replaced {n : Nat} {m : BitVec n} (hm : ~~~m = 0) (x y : BitVec n) :
    x &&& ~~~m ||| y = y := by
  rw [hm]
  exact (congrArg (· ||| y) BitVec.and_zero).trans BitVec.zero_or

/-- No bit cleared. -/
theorem clear_none {n : Nat} (x : BitVec n) : x &&& ~~~0 = x := by
  rw [show (~~~0 : BitVec n) = BitVec.allOnes n from BitVec.not_zero, BitVec.and_allOnes]

/-- No bit changed. -/
theorem unchanged {n : Nat} (x : BitVec n) : x &&& ~~~0 ||| 0 = x := by
  rw [clear_none]
  exact BitVec.or_zero

/-! ## §2. Pins that rest. -/

/-- Both strobes high, `addr` and `data` in the latch, and `dir` the directions of the
data pins. -/
def resting (addr : BitVec 4) (data dir : BitVec 8) : Lines :=
  ⟨⟨addr, data, true, true⟩, ⟨0xf, dir, true, true⟩⟩

/-- Between two bus cycles: both strobes high, with these lines and this log. -/
structure Board.Rests (s : Board) (addr : BitVec 4) (data dir : BitVec 8)
    (log : List BusEvent) : Prop where
  lines : s.lines = resting addr data dir
  log : s.log = log

/-- Pins 4 to 7, 12 and 13 are outputs, and IOR and IOW are high. -/
structure Board.Idle (s : Board) : Prop where
  addrOut : (fields s.dir).addr = 0xf
  iorOut : (fields s.dir).ior = true
  iowOut : (fields s.dir).iow = true
  iorHigh : (fields s.out).ior = true
  iowHigh : (fields s.out).iow = true

/-- Neither strobe is low. -/
structure Lines.Quiet (l : Lines) : Prop where
  ior : l.iorLow = false
  iow : l.iowLow = false

/-- As at reset: pins that are inputs pull nothing low. -/
theorem Lines.quiet_of_inputs {l : Lines} (hior : l.dir.ior = false) (hiow : l.dir.iow = false) :
    l.Quiet := by
  constructor
  · rw [Lines.iorLow, hior, Bool.false_and]
  · rw [Lines.iowLow, hiow, Bool.false_and]

/-- Nothing happens while both strobes are high. -/
theorem Lines.quiet_of_high {l : Lines} (hior : l.level.ior = true) (hiow : l.level.iow = true) :
    l.Quiet := by
  constructor
  · rw [Lines.iorLow, hior, Bool.not_true, Bool.and_false]
  · rw [Lines.iowLow, hiow, Bool.not_true, Bool.and_false]

/-- While the strobes stay high nothing is seen. -/
theorem observed_quiet (drive : BitVec 8) {l l' : Lines} (h : l.Quiet) (h' : l'.Quiet) :
    observed drive l l' = [] := by
  simp [observed, Lines.Conflict, h.ior, h.iow, h'.ior, h'.iow]

variable {s s' : Board} {addr : BitVec 4} {data dir : BitVec 8} {log : List BusEvent}

/-- An idle board rests. -/
theorem Board.Idle.rests (h : s.Idle) :
    s.Rests (fields s.out).addr (fields s.out).data (fields s.dir).data s.log := by
  have hout := h.iorHigh
  have hout' := h.iowHigh
  have haddr := h.addrOut
  have hdir := h.iorOut
  have hdir' := h.iowOut
  refine ⟨?_, rfl⟩
  unfold Board.lines resting
  generalize fields s.out = f at hout hout' ⊢
  generalize fields s.dir = g at haddr hdir hdir' ⊢
  cases f
  cases g
  simp only at hout hout' haddr hdir hdir'
  rw [hout, hout', haddr, hdir, hdir']

/-- The levels of the pins. -/
theorem Board.Rests.levels (h : s.Rests addr data dir log) :
    fields s.out = ⟨addr, data, true, true⟩ := congrArg Lines.level h.lines

/-- The directions of the pins. -/
theorem Board.Rests.directions (h : s.Rests addr data dir log) :
    fields s.dir = ⟨0xf, dir, true, true⟩ := congrArg Lines.dir h.lines

/-- A board that rests is idle. -/
theorem Board.Rests.idle (h : s.Rests addr data dir log) : s.Idle := by
  constructor <;> simp only [h.levels, h.directions]

/-- Nothing is seen of address, data or directions while the pins rest. -/
theorem observed_resting (drive : BitVec 8) (addr' : BitVec 4) (data' dir' : BitVec 8) :
    observed drive (resting addr data dir) (resting addr' data' dir') = [] :=
  observed_quiet drive (Lines.quiet_of_high rfl rfl) (Lines.quiet_of_high rfl rfl)

/-- Nor where they are high in the latch. -/
theorem Board.Moves.silent {out dir₁ : BitVec 32} (h : s.Moves out dir₁ s') (hs : s.lines.Quiet)
    (hhigh : (fields out).ior = true ∧ (fields out).iow = true) :
    s'.lines.Quiet ∧ s'.log = s.log := by
  have hquiet : s'.lines.Quiet := by
    rw [← h.out] at hhigh
    exact Lines.quiet_of_high hhigh.1 hhigh.2
  refine ⟨hquiet, ?_⟩
  rw [h.log, observed_quiet _ hs hquiet, List.append_nil]

/-- A board that rests may get another address, other data or another direction. -/
theorem Board.Rests.moves {out dir₁ : BitVec 32} {addr' : BitVec 4} {data' dir' : BitVec 8}
    (hs : s.Rests addr data dir log) (h : s.Moves out dir₁ s')
    (hlines : Lines.mk (fields out) (fields dir₁) = resting addr' data' dir') :
    s'.Rests addr' data' dir' log := by
  have hlines' : s'.lines = resting addr' data' dir' := by
    rw [← hlines, ← h.out, ← h.dir]
    rfl
  refine ⟨hlines', ?_⟩
  rw [h.log, hs.lines, hlines', observed_resting, List.append_nil, hs.log]

/-! ## §3. The parts of the routines. -/

/-- Setting bits of address and data. -/
theorem exec_IOSET {v : BitVec 32} {x : BitVec 4} {y : BitVec 8} {u : Unit}
    (hv : fields v = ⟨x, y, false, false⟩) (hs : s.Rests addr data dir log)
    (h : Program.Exec pinEnv s (IOSET v) u s') : s'.Rests (addr ||| x) (data ||| y) dir log := by
  refine hs.moves (Program.exec_perform.mp h) ?_
  rw [fields_or, hv, hs.levels, hs.directions]
  rfl

/-- Clearing bits of address and data. -/
theorem exec_IOCLR {v : BitVec 32} {x : BitVec 4} {y : BitVec 8} {u : Unit}
    (hv : fields v = ⟨x, y, false, false⟩) (hs : s.Rests addr data dir log)
    (h : Program.Exec pinEnv s (IOCLR v) u s') :
    s'.Rests (addr &&& ~~~x) (data &&& ~~~y) dir log := by
  refine hs.moves (Program.exec_perform.mp h) ?_
  rw [fields_clear, hv, hs.levels, hs.directions]
  rfl

/-- The direction of the data pins is changed: it is read, and written back with a change
to the data pins only. -/
theorem exec_setDirection {f : BitVec 32 → BitVec 32} {dir' : BitVec 8} {u : Unit}
    (hf : ∀ v, fields v = ⟨0xf, dir, true, true⟩ → fields (f v) = ⟨0xf, dir', true, true⟩)
    (hs : s.Rests addr data dir log)
    (h : Program.Exec pinEnv s (readIODIR >>= fun v => writeIODIR (f v)) u s') :
    s'.Rests addr data dir' log := by
  obtain ⟨v, s₁, hread, hwrite⟩ := Program.exec_bind.mp h
  obtain ⟨hv, hs₁⟩ := Program.exec_perform.mp hread
  rw [hv, hs₁] at hwrite
  refine hs.moves (Program.exec_perform.mp hwrite) ?_
  rw [hf _ hs.directions, hs.levels]
  rfl

/-- The data pins become outputs. -/
theorem exec_dataToOutput {u : Unit} (hs : s.Rests addr data dir log)
    (h : Program.Exec pinEnv s dataToOutput u s') : s'.Rests addr data 0xff log := by
  refine exec_setDirection (fun v hv => ?_) hs h
  rw [fields_or, fields_dataPins, hv]
  simp only [Fields.or, Fields.mk.injEq]
  exact ⟨by decide, BitVec.or_allOnes, rfl, rfl⟩

/-- The data pins become inputs. -/
theorem exec_dataToInput {u : Unit} (hs : s.Rests addr data dir log)
    (h : Program.Exec pinEnv s dataToInput u s') : s'.Rests addr data 0 log := by
  refine exec_setDirection (fun v hv => ?_) hs h
  rw [fields_clear, fields_dataPins, hv]
  simp only [Fields.clear, Fields.mk.injEq]
  exact ⟨by decide, BitVec.and_zero, rfl, rfl⟩

/-- The address is put on its pins. -/
theorem exec_putAddress {a : Nat} {u : Unit} (ha : a < 16) (hs : s.Rests addr data dir log)
    (h : Program.Exec pinEnv s (putAddress a) u s') :
    s'.Rests (BitVec.ofNat 4 a) data dir log := by
  obtain ⟨_, s₁, hclear, hset⟩ := Program.exec_bind.mp h
  have hcleared := exec_IOCLR fields_addressPins hs hclear
  have hput := exec_IOSET (fields_port ha) hcleared hset
  rwa [replaced (by decide) addr, unchanged data] at hput

/-- A byte is put on the data pins. -/
theorem exec_putData {b : BitVec 8} {u : Unit} (hs : s.Rests addr data dir log)
    (h : Program.Exec pinEnv s (putData (b.setWidth 32 <<< 16)) u s') :
    s'.Rests addr b dir log := by
  obtain ⟨_, s₁, hclear, hset⟩ := Program.exec_bind.mp h
  have hcleared := exec_IOCLR fields_dataPins hs hclear
  have hput := exec_IOSET (fields_byte b) hcleared hset
  rwa [unchanged addr, replaced (by decide) data] at hput

/-- A strobe pulled low or put high again leaves address and data alone. -/
theorem strobe_clear (i w i' w' : Bool) :
    (⟨addr, data, i, w⟩ : Fields).clear ⟨0, 0, i', w'⟩ = ⟨addr, data, i && !i', w && !w'⟩ := by
  show Fields.mk (addr &&& ~~~0) (data &&& ~~~0) _ _ = _
  rw [clear_none, clear_none]

theorem strobe_or (i w i' w' : Bool) :
    (⟨addr, data, i, w⟩ : Fields).or ⟨0, 0, i', w'⟩ = ⟨addr, data, i || i', w || w'⟩ := by
  show Fields.mk (addr ||| 0) (data ||| 0) _ _ = _
  rw [show addr ||| 0 = addr from BitVec.or_zero, show data ||| 0 = data from BitVec.or_zero]

/-- `IOCLR` of a strobe, out of rest. -/
theorem moves_down {m : BitVec 32} {i w : Bool} (hm : fields m = ⟨0, 0, i, w⟩)
    (hs : s.Rests addr data dir log) (h : s.Moves (s.out &&& ~~~m) s.dir s') :
    s'.lines = ⟨⟨addr, data, !i, !w⟩, ⟨0xf, dir, true, true⟩⟩ := by
  show Lines.mk (fields s'.out) (fields s'.dir) = _
  rw [h.out, h.dir, fields_clear, hm, hs.levels, hs.directions, strobe_clear]
  rfl

/-- `IOSET` of the strobe that is low. -/
theorem moves_up {m : BitVec 32} {i w : Bool} (hm : fields m = ⟨0, 0, i, w⟩)
    (hs : s.lines = ⟨⟨addr, data, !i, !w⟩, ⟨0xf, dir, true, true⟩⟩)
    (h : s.Moves (s.out ||| m) s.dir s') : s'.lines = resting addr data dir := by
  have hout : fields s.out = ⟨addr, data, !i, !w⟩ := congrArg Lines.level hs
  have hdir : fields s.dir = ⟨0xf, dir, true, true⟩ := congrArg Lines.dir hs
  show Lines.mk (fields s'.out) (fields s'.dir) = _
  rw [h.out, h.dir, fields_or, hm, hout, hdir, strobe_or, Bool.not_or_self, Bool.not_or_self]
  rfl

/-- **One write pulse**: the chip takes the byte that rests for the address. -/
theorem exec_toggleIOW {u : Unit} (hs : s.Rests addr data 0xff log)
    (h : Program.Exec pinEnv s toggleIOW u s') :
    s'.Rests addr data 0xff (log ++ [.iow addr data]) := by
  simp only [toggleIOW, Program.exec_bind] at h
  obtain ⟨_, s₁, hdown, _, s₂, hdelay, hup⟩ := h
  have hdown : s.Moves (s.out &&& ~~~IOW) s.dir s₁ := Program.exec_perform.mp hdown
  have hdelay : s₂ = s₁ := Program.exec_perform.mp hdelay
  rw [hdelay] at hup
  have hup : s₁.Moves (s₁.out ||| IOW) s₁.dir s' := Program.exec_perform.mp hup
  have hmask : fields IOW = ⟨0, 0, false, true⟩ := by decide
  have hlow := moves_down hmask hs hdown
  have hhigh := moves_up hmask hlow hup
  refine ⟨hhigh, ?_⟩
  rw [hup.log, hdown.log, hs.lines, hlow, hhigh, hs.log]
  simp [observed, Lines.Conflict, Lines.Steady, Lines.iorLow, Lines.iowLow, resting]

/-- **One read pulse**: what is read at the data pins is what the chip drove. -/
theorem exec_strobeIOR {v : BitVec 32} (hs : s.Rests addr data 0 log)
    (h : Program.Exec pinEnv s strobeIOR v s') :
    s'.Rests addr data 0 (log ++ [.ior addr (fields v).data]) := by
  simp only [strobeIOR, Program.exec_bind] at h
  obtain ⟨_, s₁, hdown, _, s₂, hdelay, w, s₃, hread, _, s₄, hup, hret⟩ := h
  have hdown : s.Moves (s.out &&& ~~~IOR) s.dir s₁ := Program.exec_perform.mp hdown
  have hdelay : s₂ = s₁ := Program.exec_perform.mp hdelay
  obtain ⟨hreads, hsame⟩ := Program.exec_perform.mp hread
  obtain ⟨rfl, rfl⟩ := Program.exec_pure.mp hret
  rw [hdelay] at hreads hsame
  rw [hsame] at hup
  have hup : s₁.Moves (s₁.out ||| IOR) s₁.dir s' := Program.exec_perform.mp hup
  have hmask : fields IOR = ⟨0, 0, true, false⟩ := by decide
  have hlow := moves_down hmask hs hdown
  have hhigh := moves_up hmask hlow hup
  -- with the data pins as inputs, IOPIN is what the chip drives
  have hdrive : (fields v).data = s₁.drive := by
    have hdir : fields s₁.dir = ⟨0xf, 0, true, true⟩ := congrArg Lines.dir hlow
    have hpins := hreads.2 (by rw [hlow]; rfl)
    rw [hdir] at hpins
    simpa only [clear_none] using hpins
  refine ⟨hhigh, ?_⟩
  rw [hup.log, hdown.log, hs.lines, hlow, hhigh, hs.log, hdrive]
  simp [observed, Lines.Conflict, Lines.Steady, Lines.iorLow, Lines.iowLow, resting]

/-! ## §4. The routines. -/

/-- The odd address of a port. -/
theorem exec_oddAddress {u : Unit} (hs : s.Rests addr data dir log)
    (h : Program.Exec pinEnv s (IOSET (1#32 <<< 4)) u s') : s'.Rests (addr ||| 1) data dir log := by
  have hset := exec_IOSET fields_lowPin hs h
  rwa [show data ||| 0 = data from BitVec.or_zero] at hset

/-- The even address of a port. -/
theorem exec_evenAddress {u : Unit} (hs : s.Rests addr data dir log)
    (h : Program.Exec pinEnv s (IOCLR (1#32 <<< 4)) u s') :
    s'.Rests (addr &&& ~~~1) data dir log := by
  have hclear := exec_IOCLR fields_lowPin hs h
  rwa [clear_none data] at hclear

section Routines

variable {port : Nat}

/-- **A word write**: the low byte to the port and the high byte to the next one. -/
theorem exec_cs8900aWrite {w : BitVec 16} {u : Unit} (heven : port % 2 = 0) (hlt : port < 16)
    (hs : s.Rests addr data dir log)
    (h : Program.Exec pinEnv s (cs8900aWrite port (w.setWidth 32)) u s') :
    s'.Rests (BitVec.ofNat 4 (port + 1)) (w.extractLsb' 8 8) 0xff
      (log ++ [.iow (BitVec.ofNat 4 port) (w.extractLsb' 0 8),
        .iow (BitVec.ofNat 4 (port + 1)) (w.extractLsb' 8 8)]) := by
  simp only [cs8900aWrite, Program.exec_bind, lowByte_mask, highByte_shift] at h
  obtain ⟨_, s₁, hout, _, s₂, haddr, _, s₃, hlow, _, s₄, hpulse, _, s₅, hodd, _, s₆, hhigh,
    hpulse'⟩ := h
  have h₂ := exec_putAddress hlt (exec_dataToOutput hs hout) haddr
  have h₄ := exec_toggleIOW (exec_putData h₂ hlow) hpulse
  have h₅ := exec_oddAddress h₄ hodd
  rw [(port_pins heven hlt).1] at h₅
  have h₆ := exec_toggleIOW (exec_putData h₅ hhigh) hpulse'
  rwa [List.append_assoc, List.singleton_append] at h₆

/-- **A word read**, low byte first: the word that the chip drove. -/
theorem exec_cs8900aRead {v : BitVec 32} (heven : port % 2 = 0) (hlt : port < 16)
    (hs : s.Rests addr data dir log) (h : Program.Exec pinEnv s (cs8900aRead port) v s') :
    ∃ w : BitVec 16, v = w.setWidth 32 ∧ s'.Rests (BitVec.ofNat 4 (port + 1)) data 0
      (log ++ [.ior (BitVec.ofNat 4 port) (w.extractLsb' 0 8),
        .ior (BitVec.ofNat 4 (port + 1)) (w.extractLsb' 8 8)]) := by
  simp only [cs8900aRead, Program.exec_bind] at h
  obtain ⟨_, s₁, hin, _, s₂, haddr, low, s₃, hlow, _, s₄, hodd, high, s₅, hhigh, hret⟩ := h
  obtain ⟨rfl, rfl⟩ := Program.exec_pure.mp hret
  have h₂ := exec_putAddress hlt (exec_dataToInput hs hin) haddr
  have h₄ := exec_oddAddress (exec_strobeIOR h₂ hlow) hodd
  rw [(port_pins heven hlt).1] at h₄
  have h₅ := exec_strobeIOR h₄ hhigh
  refine ⟨(fields high).data ++ (fields low).data, word_of_pins low high, ?_⟩
  rw [BitVec.extractLsb'_append_eq_right, BitVec.extractLsb'_append_eq_left]
  rwa [List.append_assoc, List.singleton_append] at h₅

/-- **A word read**, high byte first: the same word, the pulses the other way round. -/
theorem exec_cs8900aReadAddrHighFirst {v : BitVec 32} (heven : port % 2 = 0) (hlt : port < 16)
    (hs : s.Rests addr data dir log)
    (h : Program.Exec pinEnv s (cs8900aReadAddrHighFirst port) v s') :
    ∃ w : BitVec 16, v = w.setWidth 32 ∧ s'.Rests (BitVec.ofNat 4 port) data 0
      (log ++ [.ior (BitVec.ofNat 4 (port + 1)) (w.extractLsb' 8 8),
        .ior (BitVec.ofNat 4 port) (w.extractLsb' 0 8)]) := by
  simp only [cs8900aReadAddrHighFirst, Program.exec_bind] at h
  obtain ⟨_, s₁, hin, _, s₂, haddr, high, s₃, hhigh, _, s₄, hback, low, s₅, hlow, hret⟩ := h
  obtain ⟨rfl, rfl⟩ := Program.exec_pure.mp hret
  have h₂ := exec_putAddress (by omega) (exec_dataToInput hs hin) haddr
  have h₄ := exec_evenAddress (exec_strobeIOR h₂ hhigh) hback
  rw [(port_pins heven hlt).2.1] at h₄
  have h₅ := exec_strobeIOR h₄ hlow
  refine ⟨(fields high).data ++ (fields low).data, ?_, ?_⟩
  · rw [BitVec.or_comm, word_of_pins low high]
  · rw [BitVec.extractLsb'_append_eq_right, BitVec.extractLsb'_append_eq_left]
    rwa [List.append_assoc, List.singleton_append] at h₅

/-- The bus is set up for writes to a port. -/
theorem exec_busOut {u : Unit} (hlt : port < 16) (hs : s.Rests addr data dir log)
    (h : Program.Exec pinEnv s (busOut port) u s') :
    s'.Rests (BitVec.ofNat 4 port) data 0xff log := by
  obtain ⟨_, s₁, hout, haddr⟩ := Program.exec_bind.mp h
  exact exec_putAddress hlt (exec_dataToOutput hs hout) haddr

/-- The bus is set up for reads of a port. -/
theorem exec_busIn {u : Unit} (hlt : port < 16) (hs : s.Rests addr data dir log)
    (h : Program.Exec pinEnv s (busIn port) u s') :
    s'.Rests (BitVec.ofNat 4 port) data 0 log := by
  obtain ⟨_, s₁, hin, haddr⟩ := Program.exec_bind.mp h
  exact exec_putAddress hlt (exec_dataToInput hs hin) haddr

/-- **Two bytes of a frame written**, the even address first, if the callers have left
the port on the upper address pins and the data pins as outputs. -/
theorem exec_cs8900aWriteTxBuf {b0 b1 : UInt8} {u : Unit} (heven : port % 2 = 0)
    (hlt : port < 16) (hport : addr &&& ~~~1 = BitVec.ofNat 4 port)
    (hs : s.Rests addr data 0xff log)
    (h : Program.Exec pinEnv s (cs8900aWriteTxBuf b0 b1) u s') :
    s'.Rests (BitVec.ofNat 4 (port + 1)) b1.toBitVec 0xff
      (log ++ [.iow (BitVec.ofNat 4 port) b0.toBitVec,
        .iow (BitVec.ofNat 4 (port + 1)) b1.toBitVec]) := by
  simp only [cs8900aWriteTxBuf, Program.exec_bind] at h
  obtain ⟨_, s₁, hback, _, s₂, hlow, _, s₃, hpulse, _, s₄, hodd, _, s₅, hhigh, hpulse'⟩ := h
  have h₁ := exec_evenAddress hs hback
  rw [hport] at h₁
  have h₃ := exec_toggleIOW (exec_putData h₁ hlow) hpulse
  have h₄ := exec_oddAddress h₃ hodd
  rw [(port_pins heven hlt).1] at h₄
  have h₅ := exec_toggleIOW (exec_putData h₄ hhigh) hpulse'
  rwa [List.append_assoc, List.singleton_append] at h₅

/-- **Two bytes of a frame read**, likewise. -/
theorem exec_cs8900aReadRxBuf {b : UInt8 × UInt8} (heven : port % 2 = 0) (hlt : port < 16)
    (hport : addr &&& ~~~1 = BitVec.ofNat 4 port) (hs : s.Rests addr data 0 log)
    (h : Program.Exec pinEnv s cs8900aReadRxBuf b s') :
    s'.Rests (BitVec.ofNat 4 (port + 1)) data 0
      (log ++ [.ior (BitVec.ofNat 4 port) b.1.toBitVec,
        .ior (BitVec.ofNat 4 (port + 1)) b.2.toBitVec]) := by
  simp only [cs8900aReadRxBuf, Program.exec_bind] at h
  obtain ⟨_, s₁, hback, v0, s₂, hlow, _, s₃, hodd, v1, s₄, hhigh, hret⟩ := h
  obtain ⟨rfl, rfl⟩ := Program.exec_pure.mp hret
  have h₁ := exec_evenAddress hs hback
  rw [hport] at h₁
  have h₃ := exec_oddAddress (exec_strobeIOR h₁ hlow) hodd
  rw [(port_pins heven hlt).1] at h₃
  have h₄ := exec_strobeIOR h₃ hhigh
  rw [byte_of_pins, byte_of_pins]
  rwa [List.append_assoc, List.singleton_append] at h₄

end Routines

/-- The three statements of `lowLevelInit` on the pins: the strobes are set high, the pins become
outputs, and the data pins are cleared. -/
theorem exec_initPins {u : Unit} (h : Program.Exec pinEnv s initPins u s') :
    ∃ s₁ s₂, s.Moves (s.out ||| (IOR ||| IOW)) s.dir s₁
      ∧ s₁.Moves s₁.out (s₁.dir ||| (0xff#32 <<< 16 ||| IOR ||| IOW ||| 0xf#32 <<< 4)) s₂
      ∧ s₂.Moves (s₂.out &&& ~~~(0xff#32 <<< 16)) s₂.dir s' := by
  simp only [initPins, Program.exec_bind] at h
  obtain ⟨_, s₁, hset, dir, s₁', hread, _, s₂, hwrite, hclear⟩ := h
  obtain ⟨hdir, hsame⟩ := Program.exec_perform.mp hread
  rw [hsame, hdir] at hwrite
  exact ⟨s₁, s₂, Program.exec_perform.mp hset, Program.exec_perform.mp hwrite,
    Program.exec_perform.mp hclear⟩

/-- **`lowLevelInit` leaves the pins idle**, whatever they were before. -/
theorem initPins_idle {u : Unit} (h : Program.Exec pinEnv s initPins u s') : s'.Idle := by
  obtain ⟨s₁, s₂, hset, hwrite, hclear⟩ := exec_initPins h
  have hpins : fields (0xff#32 <<< 16 ||| IOR ||| IOW ||| 0xf#32 <<< 4)
      = ⟨0xf, 0xff, true, true⟩ := by decide
  have hout : fields s'.out
      = ((fields s.out).or ⟨0, 0, true, true⟩).clear ⟨0, 0xff, false, false⟩ := by
    rw [hclear.out, hwrite.out, hset.out, fields_clear, fields_or, fields_strobes, fields_dataPins]
  have hdirs : fields s'.dir = (fields s.dir).or ⟨0xf, 0xff, true, true⟩ := by
    rw [hclear.dir, hwrite.dir, hset.dir, fields_or, hpins]
  constructor
  · rw [hdirs]
    exact BitVec.or_allOnes
  · rw [hdirs]
    exact Bool.or_true _
  · rw [hdirs]
    exact Bool.or_true _
  · rw [hout]
    simp [Fields.clear, Fields.or]
  · rw [hout]
    simp [Fields.clear, Fields.or]

/-- **Setting up the pins is not seen**: the strobes are high before they are outputs. -/
theorem initPins_silent {u : Unit} (hquiet : s.lines.Quiet)
    (h : Program.Exec pinEnv s initPins u s') : s'.log = s.log := by
  obtain ⟨s₁, s₂, hset, hwrite, hclear⟩ := exec_initPins h
  -- from the first statement on the latch holds both strobes high
  have hout₁ : fields s₁.out = (fields s.out).or ⟨0, 0, true, true⟩ := by
    rw [hset.out, fields_or, fields_strobes]
  have hout' : fields s'.out = (fields s₁.out).clear ⟨0, 0xff, false, false⟩ := by
    rw [hclear.out, hwrite.out, fields_clear, fields_dataPins]
  have hhigh : (fields s₁.out).ior = true ∧ (fields s₁.out).iow = true := by
    rw [hout₁]
    exact ⟨Bool.or_true _, Bool.or_true _⟩
  have hhigh' : (fields s'.out).ior = true ∧ (fields s'.out).iow = true := by
    rw [hout']
    simp [Fields.clear, hhigh]
  obtain ⟨hquiet₁, hlog₁⟩ := hset.silent hquiet (hset.out ▸ hhigh)
  obtain ⟨hquiet₂, hlog₂⟩ := hwrite.silent hquiet₁ hhigh
  obtain ⟨-, hlog'⟩ := hclear.silent hquiet₂ (hclear.out ▸ hhigh')
  rw [hlog', hlog₂, hlog₁]

end PicoosLwip.Netif.Gpio
