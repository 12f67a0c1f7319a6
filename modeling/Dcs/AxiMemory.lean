import Dcs.AxiAnswers

/-!
# The register files are memories

A master that keeps its requests writes the data and the address that it shows at the clock at which they
are accepted, although the slave has latched the address one clock before. The registers are then the
bytes that have been written last (`ByteMemory.after`), and what is read is the register at the clock at which the
read was accepted.
-/

namespace Dcs
open Vhdl StdLogic StdLogicVector

/-! ### Bytes -/

def byte (v : StdLogicVector) (k : ℕ) : StdLogicVector := (v.drop (8 * k)).take 8

abbrev ByteMemory := StdLogicVector → ℕ → StdLogicVector

def ByteMemory.write (m : ByteMemory) (a : AxiWrite) : ByteMemory := fun r k =>
  if a.locAddr = r ∧ a.wstrb.getD k .zero = .one then byte a.wdata k else m r k

/-- The memory after some writes, which are listed latest first. -/
def ByteMemory.after : List AxiWrite → ByteMemory
  | [] => fun _ _ => slv 8 0
  | a :: h => (after h).write a

/-- The register is the word `r` of the memory. -/
def Holds (m : ByteMemory) (r : ℕ) (reg : StdLogicVector) : Prop :=
  reg.length = 32 ∧ ∀ k < 4, byte reg k = m (slv 2 r) k

theorem byte_writeBytes {reg wdata : StdLogicVector} (wstrb : StdLogicVector) (hreg : reg.length = 32)
    (hdata : wdata.length = 32) {k : ℕ} (hk : k < 4) :
    byte (writeBytes reg wdata wstrb) k = if wstrb.getD k .zero = .one then byte wdata k else byte reg k := by
  have hlen : ∀ v : StdLogicVector, v.length = 32 → (byte v k).length = 8 := fun v hv => by
    simp only [byte, List.length_take, List.length_drop, hv]
    omega
  have hbit : ∀ v : StdLogicVector, v.length = 32 → ∀ j < 8, (byte v k)[j]? = v[8 * k + j]? := fun v hv j hj => by
    simp only [byte, List.getElem?_take, List.getElem?_drop, if_pos hj]
  have hwrite : (writeBytes reg wdata wstrb).length = 32 := by simp [writeBytes, hreg]
  refine List.ext_getElem? fun j => ?_
  by_cases hj : j < 8
  · have hlane : (8 * k + j) / 8 = k := by omega
    rw [hbit _ hwrite j hj, writeBytes, List.getElem?_mapIdx, List.getElem?_eq_getElem (by omega), Option.map_some,
      hlane]
    split
    · rw [hbit _ hdata j hj, List.getD, List.getElem?_eq_getElem (by omega), Option.getD_some]
    · rw [hbit _ hreg j hj, List.getElem?_eq_getElem]
  · have hnone : ∀ v : StdLogicVector, v.length = 32 → (byte v k)[j]? = none := fun v hv =>
      List.getElem?_eq_none (by rw [hlen v hv]; omega)
    rw [hnone _ hwrite]
    split
    · exact (hnone _ hdata).symm
    · exact (hnone _ hreg).symm

theorem Holds.zero (r : ℕ) : Holds (.after []) r (slv 32 0) := by
  refine ⟨length_slv 32 0, fun k hk => ?_⟩
  have hbytes : ∀ k < 4, byte (slv 32 0) k = slv 8 0 := by decide
  exact hbytes k hk

theorem Holds.write {m : ByteMemory} {r : ℕ} {reg : StdLogicVector} (h : Holds m r reg) (a : AxiWrite)
    (hdata : a.wdata.length = 32) :
    Holds (m.write a) r (if a.locAddr = slv 2 r then writeBytes reg a.wdata a.wstrb else reg) := by
  unfold ByteMemory.write
  split
  · rename_i haddr
    refine ⟨by simp [writeBytes, h.1], fun k hk => ?_⟩
    rw [byte_writeBytes a.wstrb h.1 hdata hk, h.2 k hk]
    exact if_congr (by simp [haddr]) rfl rfl
  · rename_i haddr
    refine ⟨h.1, fun k hk => ?_⟩
    rw [h.2 k hk]
    exact (if_neg fun hw => haddr hw.1).symm

namespace S00Axi
variable {R U : Type} {M : RegBank R U} {s₀ : S00Axi R} {i₀ : AxiMaster × U} {inp : ℕ → AxiMaster × U}

/-! ### What has been made ready -/

/-- A request for which a ready signal is up is still there, with the address that has been latched. -/
structure Requested (s : S00Axi R) (i : AxiMaster) : Prop where
  write : s.axiAwready = .one → i.awvalid = .one ∧ i.wvalid = .one ∧ s.axiAwaddr = i.awaddr
  read : s.axiArready = .one → i.arvalid = .one ∧ s.axiAraddr = i.araddr

theorem requested_run (hst : Stable M s₀ i₀ inp) (n : ℕ) : (run M s₀ i₀ inp n).Requested (inp n).1 := by
  cases n with
  | zero => exact ⟨StdLogic.noConfusion, StdLogic.noConfusion⟩
  | succ n =>
    have hbin : (run M s₀ i₀ inp n).Binary := binary_run n
    rw [run_succ]
    unfold clock
    refine ⟨fun hready => ?_, fun hready => ?_⟩
    · dsimp only at hready ⊢
      split at hready
      · rename_i h
        have haw := hst.aw n h.2.1 (by simp [h.1])
        have hw := hst.w n h.2.2 (by simp [hbin.wready, h.1])
        exact ⟨haw.1, hw.1, by rw [if_pos h, haw.2]⟩
      · cases hready
    · dsimp only at hready ⊢
      split at hready
      · rename_i h
        have har := hst.ar n h.2 (by simp [h.1])
        exact ⟨har.1, by rw [if_pos h, har.2]⟩
      · cases hready

theorem zero_and (b : StdLogic) : StdLogic.zero.and b = .zero := by cases b <;> rfl

theorem slvRegWren_iff {s : S00Axi R} {i : AxiMaster} (hbin : s.Binary) (hreq : s.Requested i) :
    s.slvRegWren i = .one ↔ s.AcceptsWrite i := by
  unfold slvRegWren AcceptsWrite
  rw [hbin.wready]
  rcases hbin.awready with h | h
  · rw [h, zero_and, zero_and, zero_and]
    simp
  · obtain ⟨haw, hw, -⟩ := hreq.write h
    rw [h, haw, hw]
    decide

/-- The writes that have been accepted before clock `n`, latest first. -/
def accepted (M : RegBank R U) (s₀ : S00Axi R) (i₀ : AxiMaster × U) (inp : ℕ → AxiMaster × U) : ℕ → List AxiWrite
  | 0 => []
  | n + 1 =>
    if (run M s₀ i₀ inp n).AcceptsWrite (inp n).1 then
      ⟨locAddr (inp n).1.awaddr, (inp n).1.wdata, (inp n).1.wstrb⟩ :: accepted M s₀ i₀ inp n
    else accepted M s₀ i₀ inp n

/-- `reg` is the slave register `r`: it is cleared, and written at its address only. -/
structure Stores (M : RegBank R U) (reg : R → StdLogicVector) (r : ℕ) : Prop where
  reset : ∀ f u, reg (M.aclk f true .zero none u) = slv 32 0
  keep : ∀ f u, reg (M.aclk f true .one none u) = reg f
  write : ∀ f a u, reg (M.aclk f true .one (some a) u) =
    if a.locAddr = slv 2 r then writeBytes (reg f) a.wdata a.wstrb else reg f
  falling : ∀ f aresetn u, reg (M.aclk f false aresetn none u) = reg f

theorem Stores.holds {reg : R → StdLogicVector} {r : ℕ} (hreg : Stores M reg r) (hst : Stable M s₀ i₀ inp) (n : ℕ) :
    Holds (.after (accepted M s₀ i₀ inp n)) r (reg (run M s₀ i₀ inp n).regs) := by
  induction n with
  | zero =>
    rw [run_zero, hreg.falling, hreg.reset]
    exact Holds.zero r
  | succ n ih =>
    have hreq := requested_run hst n
    rw [run_succ, hreg.falling, accepted]
    unfold clock
    dsimp only
    by_cases hacc : (run M s₀ i₀ inp n).AcceptsWrite (inp n).1
    · -- the latched address is the one that the master still shows
      rw [if_pos ((slvRegWren_iff (binary_run n) hreq).2 hacc), if_pos hacc, hreg.write, (hreq.write hacc.1).2.2]
      exact ih.write _ (inp n).1.length_wdata
    · rw [if_neg fun h => hacc ((slvRegWren_iff (binary_run n) hreq).1 h), if_neg hacc, hreg.keep]
      exact ih

end S00Axi

end Dcs
