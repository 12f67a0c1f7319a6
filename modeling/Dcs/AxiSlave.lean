import Dcs.PwmSafe

/-!
# The AXI4-Lite slaves

`PWM_AXI_v2_v1_0_S00_AXI` and `enc_axi_v2_v1_0_S00_AXI` have the same handshake processes around their
register files. `S00Axi` holds the signals of these processes over a register file `R` with user ports `U`
(`RegBank`); every right-hand side reads the old signal values. One clock is a rising and a falling event
of `S_AXI_ACLK`: the register file of PWM drives its ports at both.
-/

namespace Dcs
open Vhdl StdLogic StdLogicVector

/-! ### Register files -/

/-- A register file: what an event of `S_AXI_ACLK` does, and `reg_data_out`. -/
structure RegBank (R U : Type) where
  aclk : R → Bool → StdLogic → Option AxiWrite → U → R
  regDataOut : R → StdLogicVector → StdLogicVector

def regDataOut (slvReg0 slvReg1 slvReg2 slvReg3 locAddr : StdLogicVector) : StdLogicVector :=
  if locAddr = slv 2 0 then slvReg0
  else if locAddr = slv 2 1 then slvReg1
  else if locAddr = slv 2 2 then slvReg2
  else if locAddr = slv 2 3 then slvReg3
  else slv 32 0

def pwmBank : RegBank RegFile Unit where
  aclk f rising aresetn write _ := f.aclk rising aresetn write
  regDataOut f := regDataOut f.slvReg0 f.slvReg1 f.slvReg2 f.slvReg3

structure EncoderRegs where
  slvReg0 : StdLogicVector
  slvReg1 : StdLogicVector
  slvReg2 : StdLogicVector
  slvReg3 : StdLogicVector
  length_slvReg1 : slvReg1.length = 32

structure EncoderPorts where
  pos : StdLogicVector
  dir : StdLogic
  encFail : StdLogic

/-- The processes that write the slave registers; registers 0 and 1 follow the ports, also in reset. -/
def EncoderRegs.aclk (f : EncoderRegs) (rising : Bool) (aresetn : StdLogic) (write : Option AxiWrite)
    (u : EncoderPorts) : EncoderRegs :=
  if rising then
    let ports := { f with
      slvReg0 := u.pos
      slvReg1 := (f.slvReg1.set 0 u.dir).set 1 u.encFail
      length_slvReg1 := by simp [f.length_slvReg1] }
    if aresetn = .zero then { ports with slvReg2 := slv 32 0, slvReg3 := slv 32 0 }
    else
      match write with
      | none => ports
      | some a =>
        if a.locAddr = slv 2 2 then { ports with slvReg2 := writeBytes f.slvReg2 a.wdata a.wstrb }
        else if a.locAddr = slv 2 3 then { ports with slvReg3 := writeBytes f.slvReg3 a.wdata a.wstrb }
        else ports
  else f

def encoderBank : RegBank EncoderRegs EncoderPorts where
  aclk := EncoderRegs.aclk
  regDataOut f := regDataOut f.slvReg0 f.slvReg1 f.slvReg2 f.slvReg3

def RegFile.powerUp : RegFile :=
  ⟨.replicate 32 .U, .replicate 32 .U, .replicate 32 .U, .replicate 32 .U, .replicate 32 .U, .replicate 32 .U, .U, .U⟩

def EncoderRegs.powerUp : EncoderRegs :=
  ⟨.replicate 32 .U, .replicate 32 .U, .replicate 32 .U, .replicate 32 .U, rfl⟩

/-! ### The handshake -/

structure AxiMaster where
  awaddr : StdLogicVector
  awvalid : StdLogic
  wdata : StdLogicVector
  wstrb : StdLogicVector
  wvalid : StdLogic
  bready : StdLogic
  araddr : StdLogicVector
  arvalid : StdLogic
  rready : StdLogic
  length_awaddr : awaddr.length = 4
  length_wdata : wdata.length = 32
  length_wstrb : wstrb.length = 4
  length_araddr : araddr.length = 4

structure S00Axi (R : Type) where
  axiAwaddr : StdLogicVector
  axiAwready : StdLogic
  axiWready : StdLogic
  axiBresp : StdLogicVector
  axiBvalid : StdLogic
  axiAraddr : StdLogicVector
  axiArready : StdLogic
  axiRdata : StdLogicVector
  axiRresp : StdLogicVector
  axiRvalid : StdLogic
  regs : R

/-- `addr(ADDR_LSB + OPT_MEM_ADDR_BITS downto ADDR_LSB)`. -/
def locAddr (addr : StdLogicVector) : StdLogicVector := (addr.drop 2).take 2

namespace S00Axi
variable {R U : Type}

def slvRegWren (s : S00Axi R) (i : AxiMaster) : StdLogic :=
  ((s.axiWready.and i.wvalid).and s.axiAwready).and i.awvalid

def slvRegRden (s : S00Axi R) (i : AxiMaster) : StdLogic := (s.axiArready.and i.arvalid).and s.axiRvalid.not

/-- The rising edge in reset. -/
def reset (M : RegBank R U) (s : S00Axi R) (u : U) : S00Axi R where
  axiAwaddr := slv 4 0
  axiAwready := .zero
  axiWready := .zero
  axiBresp := slv 2 0
  axiBvalid := .zero
  axiAraddr := slv 4 15
  axiArready := .zero
  axiRdata := slv 32 0
  axiRresp := slv 2 0
  axiRvalid := .zero
  regs := M.aclk s.regs true .zero none u

def AcceptsWrite (s : S00Axi R) (i : AxiMaster) : Prop :=
  s.axiAwready = .one ∧ i.awvalid = .one ∧ s.axiWready = .one ∧ i.wvalid = .one

def AcceptsRead (s : S00Axi R) (i : AxiMaster) : Prop := s.axiArready = .one ∧ i.arvalid = .one

def AnswersWrite (s : S00Axi R) (i : AxiMaster) : Prop := s.axiBvalid = .one ∧ i.bready = .one

def AnswersRead (s : S00Axi R) (i : AxiMaster) : Prop := s.axiRvalid = .one ∧ i.rready = .one

instance (s : S00Axi R) (i : AxiMaster) : Decidable (AcceptsWrite s i) := inferInstanceAs (Decidable (_ ∧ _ ∧ _ ∧ _))
instance (s : S00Axi R) (i : AxiMaster) : Decidable (AcceptsRead s i) := inferInstanceAs (Decidable (_ ∧ _))
instance (s : S00Axi R) (i : AxiMaster) : Decidable (AnswersWrite s i) := inferInstanceAs (Decidable (_ ∧ _))
instance (s : S00Axi R) (i : AxiMaster) : Decidable (AnswersRead s i) := inferInstanceAs (Decidable (_ ∧ _))

/-- The rising edge with `S_AXI_ARESETN = '1'`. -/
def clock (M : RegBank R U) (s : S00Axi R) (i : AxiMaster) (u : U) : S00Axi R where
  axiAwaddr := if s.axiAwready = .zero ∧ i.awvalid = .one ∧ i.wvalid = .one then i.awaddr else s.axiAwaddr
  axiAwready := if s.axiAwready = .zero ∧ i.awvalid = .one ∧ i.wvalid = .one then .one else .zero
  axiWready := if s.axiWready = .zero ∧ i.wvalid = .one ∧ i.awvalid = .one then .one else .zero
  axiBresp := if s.AcceptsWrite i ∧ s.axiBvalid = .zero then slv 2 0 else s.axiBresp
  axiBvalid :=
    if s.AcceptsWrite i ∧ s.axiBvalid = .zero then .one
    else if i.bready = .one ∧ s.axiBvalid = .one then .zero
    else s.axiBvalid
  axiAraddr := if s.axiArready = .zero ∧ i.arvalid = .one then i.araddr else s.axiAraddr
  axiArready := if s.axiArready = .zero ∧ i.arvalid = .one then .one else .zero
  axiRdata := if s.slvRegRden i = .one then M.regDataOut s.regs (locAddr s.axiAraddr) else s.axiRdata
  axiRresp := if s.AcceptsRead i ∧ s.axiRvalid = .zero then slv 2 0 else s.axiRresp
  axiRvalid :=
    if s.AcceptsRead i ∧ s.axiRvalid = .zero then .one
    else if s.axiRvalid = .one ∧ i.rready = .one then .zero
    else s.axiRvalid
  regs := M.aclk s.regs true .one
    (if s.slvRegWren i = .one then some ⟨locAddr s.axiAwaddr, i.wdata, i.wstrb⟩ else none) u

/-- An event of `S_AXI_ACLK`; `rising` is `rising_edge (S_AXI_ACLK)`. -/
def aclk (M : RegBank R U) (s : S00Axi R) (rising : Bool) (aresetn : StdLogic) (i : AxiMaster) (u : U) : S00Axi R :=
  if rising then
    if aresetn = .zero then s.reset M u else s.clock M i u
  else { s with regs := M.aclk s.regs false aresetn none u }

/-- A clock cycle: both events of `S_AXI_ACLK`, with the inputs of the master and of the user ports. -/
def cycle (M : RegBank R U) (aresetn : StdLogic) (s : S00Axi R) (i : AxiMaster × U) : S00Axi R :=
  (s.aclk M true aresetn i.1 i.2).aclk M false aresetn i.1 i.2

/-- The state in front of clock `n` after a cycle in reset. -/
def run (M : RegBank R U) (s₀ : S00Axi R) (i₀ : AxiMaster × U) (inp : ℕ → AxiMaster × U) : ℕ → S00Axi R :=
  Clocked.trace (cycle M .one) (cycle M .zero s₀ i₀) inp

/-- The master keeps a valid signal and what it is valid for until the ready signal is there. -/
structure Stable (M : RegBank R U) (s₀ : S00Axi R) (i₀ : AxiMaster × U) (inp : ℕ → AxiMaster × U) : Prop where
  aw : ∀ n, (inp n).1.awvalid = .one → (run M s₀ i₀ inp n).axiAwready ≠ .one →
    (inp (n + 1)).1.awvalid = .one ∧ (inp (n + 1)).1.awaddr = (inp n).1.awaddr
  w : ∀ n, (inp n).1.wvalid = .one → (run M s₀ i₀ inp n).axiWready ≠ .one →
    (inp (n + 1)).1.wvalid = .one ∧ (inp (n + 1)).1.wdata = (inp n).1.wdata ∧
      (inp (n + 1)).1.wstrb = (inp n).1.wstrb
  ar : ∀ n, (inp n).1.arvalid = .one → (run M s₀ i₀ inp n).axiArready ≠ .one →
    (inp (n + 1)).1.arvalid = .one ∧ (inp (n + 1)).1.araddr = (inp n).1.araddr

section
variable {M : RegBank R U} {s₀ : S00Axi R} {i₀ : AxiMaster × U} {inp : ℕ → AxiMaster × U}

theorem run_zero : run M s₀ i₀ inp 0 =
    { reset M s₀ i₀.2 with regs := M.aclk (M.aclk s₀.regs true .zero none i₀.2) false .zero none i₀.2 } := rfl

theorem run_succ (n : ℕ) : run M s₀ i₀ inp (n + 1) =
    { clock M (run M s₀ i₀ inp n) (inp n).1 (inp n).2 with
      regs := M.aclk (clock M (run M s₀ i₀ inp n) (inp n).1 (inp n).2).regs false .one none (inp n).2 } := rfl

def powerUp (regs : R) : S00Axi R where
  axiAwaddr := .replicate 4 .U
  axiAwready := .U
  axiWready := .U
  axiBresp := .replicate 2 .U
  axiBvalid := .U
  axiAraddr := .replicate 4 .U
  axiArready := .U
  axiRdata := .replicate 32 .U
  axiRresp := .replicate 2 .U
  axiRvalid := .U
  regs := regs

/-- The ready and valid signals are `'0'` or `'1'`. -/
structure Binary (s : S00Axi R) : Prop where
  awready : s.axiAwready = .zero ∨ s.axiAwready = .one
  wready : s.axiWready = s.axiAwready
  bvalid : s.axiBvalid = .zero ∨ s.axiBvalid = .one
  arready : s.axiArready = .zero ∨ s.axiArready = .one
  rvalid : s.axiRvalid = .zero ∨ s.axiRvalid = .one

theorem Binary.clock {s : S00Axi R} (hs : s.Binary) (i : AxiMaster) (u : U) : (s.clock M i u).Binary := by
  refine ⟨?_, ?_, ?_, ?_, ?_⟩ <;> unfold S00Axi.clock
  · dsimp only
    split <;> simp
  · dsimp only
    rw [hs.wready]
    exact if_congr (and_congr_right fun _ => and_comm) rfl rfl
  · dsimp only
    split_ifs
    exacts [.inr rfl, .inl rfl, hs.bvalid]
  · dsimp only
    split <;> simp
  · dsimp only
    split_ifs
    exacts [.inr rfl, .inl rfl, hs.rvalid]

theorem binary_run (n : ℕ) : (run M s₀ i₀ inp n).Binary := by
  induction n with
  | zero => exact ⟨.inl rfl, rfl, .inl rfl, .inl rfl, .inl rfl⟩
  | succ n ih =>
    rw [run_succ]
    obtain ⟨h1, h2, h3, h4, h5⟩ := ih.clock (M := M) (inp n).1 (inp n).2
    exact ⟨h1, h2, h3, h4, h5⟩

end

end S00Axi

end Dcs
