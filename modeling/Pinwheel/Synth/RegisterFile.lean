import Pinwheel.Lib.SyncRam
import Pinwheel.Soc.Regfile

/-!
# Register files in hardware

`soc/regfile.h` has its memories twice: in C++, and in a comment as the Verilog of two
`SB_RAM40_4K` cells side by side, of which `synth/blackbox/cells_sim.v` is the model.
`synth/pinwheel_regfile.sv` makes a register file of two `synth/block_ram.sv`, and
`synth/bram.sv` has one in a comment, `pinwheel_regs`.  They differ in what they read of a
register in the clock in which it is written.
-/

namespace Pinwheel

/-- The ports of a memory of registers. -/
abbrev WordPort := ReadPort (BitVec 32)

/-- A bank as a synchronous memory. -/
def Ram256x32.sync (r : Ram256x32) : SyncRam (BitVec 8) (BitVec 32) := ⟨r.ram, r.rdata⟩

def Ram256x32.ofSync (r : SyncRam (BitVec 8) (BitVec 32)) : Ram256x32 := ⟨r.cells, r.out⟩

/-- One clock of a bank with another read port. -/
def Ram256x32.tickBy (p : WordPort) (r : Ram256x32) (raddr waddr : BitVec 8) (wdata : BitVec 32)
    (wren : Bool) : Ram256x32 :=
  .ofSync (r.sync.tick p raddr waddr wdata wren)

/-- So for both banks. -/
def Regfile.tickBy (p : WordPort) (r : Regfile) (i : RegfileIf) : Regfile where
  ram1 := r.ram1.tickBy p (i.raddr1.setWidth 8) (i.waddr.setWidth 8) i.wdata i.wren
  ram2 := r.ram2.tickBy p (i.raddr2.setWidth 8) (i.waddr.setWidth 8) i.wdata i.wren

/-- `ram_256x32::tick` hands out what the write carries. -/
theorem Regfile.tickBy_bypass (r : Regfile) (i : RegfileIf) : r.tickBy .bypass i = r.tick i := rfl

/-- A register file that could be in the SoC, with the words in its banks and latches. -/
structure RegisterFile where
  State : Type
  tick : State → RegfileIf → State
  words : State → Regfile

/-- Its banks have the given read ports. -/
def RegisterFile.ReadsBy (F : RegisterFile) (p : WordPort) : Prop :=
  ∀ st i, F.words (F.tick st i) = (F.words st).tickBy p i

/-- The register file of the SoC. -/
def regfile : RegisterFile := ⟨Regfile, Regfile.tick, id⟩

theorem regfile_readsBy : regfile.ReadsBy .bypass := fun st i ↦ (Regfile.tickBy_bypass st i).symm

/-! ## `cells_sim.v` -/

/-- `SB_RAM40_4K` with `READ_MODE` and `WRITE_MODE` 0: 256 words of 16 bits. -/
structure SbRam40_4K where
  memory : BitVec 8 → BitVec 16
  rdata : BitVec 16

/-- One edge of both clocks.  A bit whose bit in `mask` is set is not written. -/
def SbRam40_4K.tick (r : SbRam40_4K) (rclke re : Bool) (raddr : BitVec 11) (wclke we : Bool)
    (waddr : BitVec 11) (mask wdata : BitVec 16) : SbRam40_4K where
  memory :=
    if we && wclke then
      Function.update r.memory (waddr.setWidth 8)
        (r.memory (waddr.setWidth 8) &&& mask ||| wdata &&& ~~~mask)
    else r.memory
  rdata := if re && rclke then r.memory (raddr.setWidth 8) &&& ~~~0#16 else r.rdata

def SbRam40_4K.sync (r : SbRam40_4K) : SyncRam (BitVec 8) (BitVec 16) := ⟨r.memory, r.rdata⟩

namespace SbRam40_4K

variable {r : SbRam40_4K} {raddr waddr : BitVec 8} {wdata : BitVec 16} {wren : Bool}

/-- Without a mask and with its clocks and its read port enabled a cell reads what was in it. -/
theorem sync_tick : (r.tick true true (0#3 ++ raddr) true wren (0#3 ++ waddr) 0#16 wdata).sync =
    r.sync.tick .old raddr waddr wdata wren := by
  have haddr : ∀ a : BitVec 8, (0#3 ++ a).setWidth 8 = a := fun a ↦
    BitVec.setWidth_append_eq_right
  have hread : ∀ w : BitVec 16, w &&& ~~~0#16 = w := fun w ↦ by
    rw [BitVec.not_zero, BitVec.and_allOnes]
  unfold tick sync SyncRam.tick
  simp only [haddr, hread, BitVec.and_zero, BitVec.zero_or, Bool.and_true, if_true, ReadPort.old,
    ite_self]

end SbRam40_4K

/-! ## The Verilog of `regfile.h` -/

/-- `ram_256x32` of two cells. -/
structure CellRam where
  myRamLo : SbRam40_4K
  myRamHi : SbRam40_4K

namespace CellRam

variable (r : CellRam) (re : Bool) (raddr waddr : BitVec 8) (wdata : BitVec 32) (wren : Bool)

/-- The clock enables and the mask are left at the defaults of `cells_sim.v`.  So is the read
enable, which is off then; here it is `re`. -/
def tick : CellRam where
  myRamLo := r.myRamLo.tick true re (0#3 ++ raddr) true wren (0#3 ++ waddr) 0#16
    (wdata.extractLsb' 0 16)
  myRamHi := r.myRamHi.tick true re (0#3 ++ raddr) true wren (0#3 ++ waddr) 0#16
    (wdata.extractLsb' 16 16)

/-- The words that the halves make. -/
def words : Ram256x32 where
  ram a := r.myRamHi.memory a ++ r.myRamLo.memory a
  rdata := r.myRamHi.rdata ++ r.myRamLo.rdata

theorem words_eq : r.words = .ofSync
    ((r.myRamHi.sync.beside r.myRamLo.sync).map fun w : BitVec 16 × BitVec 16 ↦ w.1 ++ w.2) :=
  rfl

/-- **Two cells are a memory of words** that reads what was in it. -/
theorem words_tick : (r.tick true raddr waddr wdata wren).words =
    r.words.tickBy .old raddr waddr wdata wren := by
  have hwdata : wdata.extractLsb' 16 16 ++ wdata.extractLsb' 0 16 = wdata :=
    BitVec.extractLsb'_append_extractLsb'
  have hmap := @SyncRam.tick_map _ _ _ _ .old (r.myRamHi.sync.beside r.myRamLo.sync) raddr waddr
    (wdata.extractLsb' 16 16, wdata.extractLsb' 0 16) wren (fun w ↦ w.1 ++ w.2) .old
    (ReadPort.parts_old _)
  have hbeside : ((r.tick true raddr waddr wdata wren).myRamHi.sync.beside
      (r.tick true raddr waddr wdata wren).myRamLo.sync) =
      (r.myRamHi.sync.beside r.myRamLo.sync).tick .old raddr waddr
        (wdata.extractLsb' 16 16, wdata.extractLsb' 0 16) wren := by
    unfold tick
    rw [SbRam40_4K.sync_tick, SbRam40_4K.sync_tick, SyncRam.tick_beside]
    rfl
  rw [words_eq, hbeside, hmap, hwdata]
  rfl

/-- A bank in two cells. -/
def ofWords (w : Ram256x32) : CellRam where
  myRamLo := ⟨fun a ↦ (w.ram a).extractLsb' 0 16, w.rdata.extractLsb' 0 16⟩
  myRamHi := ⟨fun a ↦ (w.ram a).extractLsb' 16 16, w.rdata.extractLsb' 16 16⟩

theorem words_ofWords (w : Ram256x32) : (ofWords w).words = w :=
  congrArg₂ Ram256x32.mk (funext fun _ ↦ BitVec.extractLsb'_append_extractLsb')
    BitVec.extractLsb'_append_extractLsb'

end CellRam

/-- The register file of `regfile.h` in Verilog. -/
def cellFile (re : Bool) : RegisterFile where
  State := CellRam × CellRam
  tick r i :=
    (r.1.tick re (i.raddr1.setWidth 8) (i.waddr.setWidth 8) i.wdata i.wren,
      r.2.tick re (i.raddr2.setWidth 8) (i.waddr.setWidth 8) i.wdata i.wren)
  words r := ⟨r.1.words, r.2.words⟩

theorem cellFile_readsBy : (cellFile true).ReadsBy .old := fun st _ ↦
  congrArg₂ Regfile.mk (st.1.words_tick _ _ _ _) (st.2.words_tick _ _ _ _)

/-! ## `block_ram.sv` and `pinwheel_regfile.sv` -/

/-- `block_ram` of `block_ram.sv`. -/
structure BlockRamSv (addrBits wordBits : ℕ) where
  mem : BitVec addrBits → BitVec wordBits
  rdata : BitVec wordBits

/-- One edge of both clocks. -/
def BlockRamSv.tick {addrBits wordBits : ℕ} (r : BlockRamSv addrBits wordBits)
    (raddr waddr : BitVec addrBits) (wdata : BitVec wordBits) (wren : Bool) :
    BlockRamSv addrBits wordBits where
  mem := if wren then Function.update r.mem waddr wdata else r.mem
  rdata := r.mem raddr

/-- `pinwheel_regfile`. -/
structure PinwheelRegfile (addrBits wordBits : ℕ) where
  regs0 : BlockRamSv addrBits wordBits
  regs1 : BlockRamSv addrBits wordBits

def PinwheelRegfile.tick {addrBits wordBits : ℕ} (r : PinwheelRegfile addrBits wordBits)
    (raddr0 raddr1 waddr : BitVec addrBits) (wdata : BitVec wordBits) (wren : Bool) :
    PinwheelRegfile addrBits wordBits where
  regs0 := r.regs0.tick raddr0 waddr wdata wren
  regs1 := r.regs1.tick raddr1 waddr wdata wren

/-- A `pinwheel_regfile` for eight threads. -/
def blockFile : RegisterFile where
  State := PinwheelRegfile 8 32
  tick r i := r.tick (i.raddr1.setWidth 8) (i.raddr2.setWidth 8) (i.waddr.setWidth 8) i.wdata i.wren
  words r := ⟨⟨r.regs0.mem, r.regs0.rdata⟩, ⟨r.regs1.mem, r.regs1.rdata⟩⟩

theorem blockFile_readsBy : blockFile.ReadsBy .old := fun st i ↦ by
  have htick : ∀ (r : BlockRamSv 8 32) raddr, Ram256x32.mk
      (r.tick raddr (i.waddr.setWidth 8) i.wdata i.wren).mem
      (r.tick raddr (i.waddr.setWidth 8) i.wdata i.wren).rdata =
        Ram256x32.tickBy .old ⟨r.mem, r.rdata⟩ raddr (i.waddr.setWidth 8) i.wdata i.wren :=
    fun r raddr ↦ congrArg (Ram256x32.mk _) (ite_self _).symm
  exact congrArg₂ Regfile.mk (htick _ _) (htick _ _)

/-! ## `bram.sv` -/

/-- `pinwheel_regs`: one array with two read ports. -/
structure PinwheelRegs where
  regs : BitVec 8 → BitVec 32
  rdata1 : BitVec 32
  rdata2 : BitVec 32

def PinwheelRegs.tick (r : PinwheelRegs) (raddr1 raddr2 waddr : BitVec 8) (wdata : BitVec 32)
    (wren : Bool) : PinwheelRegs where
  regs := if wren then Function.update r.regs waddr wdata else r.regs
  rdata1 := if wren && raddr1 == waddr then wdata else r.regs raddr1
  rdata2 := if wren && raddr2 == waddr then wdata else r.regs raddr2

def regsFile : RegisterFile where
  State := PinwheelRegs
  tick r i := r.tick (i.raddr1.setWidth 8) (i.raddr2.setWidth 8) (i.waddr.setWidth 8) i.wdata i.wren
  words r := ⟨⟨r.regs, r.rdata1⟩, ⟨r.regs, r.rdata2⟩⟩

theorem regsFile_readsBy : regsFile.ReadsBy .new := fun st i ↦ by
  have hread : ∀ raddr : BitVec 8,
      (if i.wren && raddr == i.waddr.setWidth 8 then i.wdata else st.regs raddr) =
        if raddr = i.waddr.setWidth 8 then ReadPort.new (st.regs raddr) i.wdata i.wren
        else st.regs raddr := by
    intro raddr
    by_cases h : raddr = i.waddr.setWidth 8
    · rw [if_pos h, ReadPort.new, beq_iff_eq.mpr h, Bool.and_true]
    · rw [if_neg h, beq_eq_false_iff_ne.mpr h, Bool.and_false, if_neg Bool.false_ne_true]
  exact congrArg₂ Regfile.mk (congrArg (Ram256x32.mk _) (hread _))
    (congrArg (Ram256x32.mk _) (hread _))

end Pinwheel
