import Dcs.Esc
import Mathlib.Logic.Function.Basic

/-!
# The word accessors

The stack calls `HW_EscReadWord (v, addr)` and its siblings with the variable itself: they were macros
once that took its address. As functions they get the value in a parameter of their own and pass the
address of that parameter on, so a read never reaches the variable, and a write sends the low bytes of
the words that start at the parameter, of which only the first one is the value.
-/

namespace Dcs
namespace Ecat
open Function CMem Memory

/-- The call of an accessor: the value, converted to a pointer, in the parameter, in front of whatever
else the frame holds. -/
def passArg (h : Host) (value : ℕ) (frame : ℕ → UInt8) : Host :=
  { h with memory := store (update h.memory .arg frame) ⟨.arg, 0⟩ (leBytes 4 value) }

section
variable (S : Spidev) (signed : Bool)

def hwEscReadWord (h : Host) (WordValue : ℕ) (Address : UInt16) (frame rx : ℕ → UInt8) : Host :=
  hwEscRead S signed (passArg h WordValue frame) ⟨.arg, 0⟩ Address 2 rx

def hwEscReadWordIsr (h : Host) (WordValue : ℕ) (Address : UInt16) (frame rx : ℕ → UInt8) : Host :=
  hwEscReadIsr S signed (passArg h WordValue frame) ⟨.arg, 0⟩ Address 2 rx

def hwEscReadDWord (h : Host) (WordValue : ℕ) (Address : UInt16) (frame rx : ℕ → UInt8) : Host :=
  hwEscRead S signed (passArg h WordValue frame) ⟨.arg, 0⟩ Address 4 rx

def hwEscWriteWord (h : Host) (WordValue : ℕ) (Address : UInt16) (frame rx : ℕ → UInt8) : Host :=
  hwEscWrite S (passArg h WordValue frame) ⟨.arg, 0⟩ Address 2 rx

def hwEscWriteWordIsr (h : Host) (WordValue : ℕ) (Address : UInt16) (frame rx : ℕ → UInt8) : Host :=
  hwEscWriteIsr S (passArg h WordValue frame) ⟨.arg, 0⟩ Address 2 rx

def hwEscWriteDWord (h : Host) (WordValue : ℕ) (Address : UInt16) (frame rx : ℕ → UInt8) : Host :=
  hwEscWrite S (passArg h WordValue frame) ⟨.arg, 0⟩ Address 4 rx

/-- The accessors with the number of bytes they are for. -/
abbrev WordAccess := Host → ℕ → UInt16 → (ℕ → UInt8) → (ℕ → UInt8) → Host

def wordReads : List (UInt16 × WordAccess) :=
  [(2, hwEscReadWord S signed), (2, hwEscReadWordIsr S signed), (4, hwEscReadDWord S signed)]

def wordWrites : List (UInt16 × WordAccess) :=
  [(2, hwEscWriteWord S), (2, hwEscWriteWordIsr S), (4, hwEscWriteDWord S)]

def hwGetALEventRegister : UInt16 := 0

def hwGetALEventRegisterIsr : UInt16 := 0

/-- The value of a variable of `n` bytes, and of the `n` bytes at an address of the controller. -/
def Host.var (h : Host) (x n : ℕ) : ℕ := ofBytes (h.memory.load ⟨.var x, 0⟩ n)

def Esc.value (e : Esc) (Address : UInt16) (n : ℕ) : ℕ := ofBytes (e.range Address.toNat n)

def ESC_AL_EVENTMASK_OFFSET : UInt16 := 0x0204

def ESC_AL_EVENT_OFFSET : UInt16 := 0x0220

/-- What is not initialised when `SetALEventMask` is called. -/
structure Junk where
  frame : ℕ → UInt8
  rx : ℕ → UInt8
  frame' : ℕ → UInt8
  rx' : ℕ → UInt8

/-- `ResetALEventMask` and `SetALEventMask` up to the call of `HW_EscWriteWord`; `mask` is their local
variable, which `op` combines with the argument. -/
def combineALEventMask (op : UInt16 → UInt16 → UInt16) (h : Host) (mask : ℕ) (intMask : UInt16) (j : Junk) :
    Host :=
  let h := hwEscReadWord S signed h (h.var mask 2) ESC_AL_EVENTMASK_OFFSET j.frame j.rx
  { h with memory := h.memory.store ⟨.var mask, 0⟩ (leBytes 2 (op (.ofNat (h.var mask 2)) intMask).toNat) }

def writeALEventMask (op : UInt16 → UInt16 → UInt16) (h : Host) (mask : ℕ) (intMask : UInt16) (j : Junk) : Host :=
  let h := combineALEventMask S signed op h mask intMask j
  hwEscWriteWord S h (h.var mask 2) ESC_AL_EVENTMASK_OFFSET j.frame' j.rx'

def resetALEventMask := writeALEventMask S signed (· &&& ·)

def setALEventMask := writeALEventMask S signed (· ||| ·)

end

variable {S : Spidev} {signed : Bool} {h : Host} {v : ℕ} {Address Len : UInt16} {frame rx : ℕ → UInt8}

@[simp] theorem passArg_esc : (passArg h v frame).esc = h.esc := rfl

theorem passArg_var (x k : ℕ) : (passArg h v frame).memory (.var x) k = h.memory (.var x) k := by
  simp [passArg, store]

theorem passArg_arg (k : ℕ) : (passArg h v frame).memory .arg k =
    if k < 4 then UInt8.ofNat (v / 256 ^ k) else frame k := by
  have hstore := store_add (m := update h.memory .arg frame) (p := ⟨Obj.arg, 0⟩) (leBytes 4 v) k
  rw [Nat.zero_add, getElem?_leBytes, update_self] at hstore
  refine hstore.trans ?_
  split <;> rfl

/-- A read through the parameter reaches no variable. -/
theorem read_arg_var (x n : ℕ) :
    (hwEscRead S signed (passArg h v frame) ⟨.arg, 0⟩ Address Len rx).var x n = h.var x n := by
  refine congrArg ofBytes (load_eq_iff.2 fun i _ => ?_)
  rw [hwEscRead_outside (by simp), passArg_var]

/-- A write through the parameter sends the first byte of the value, and then bytes of the frame. -/
theorem write_arg_esc
    (hres : 0 ≤ (writeReply S (passArg h v frame) ⟨.arg, 0⟩ Address Len rx).res) {n : ℕ} (hn : n ≤ Len.toNat) :
    (hwEscWrite S (passArg h v frame) ⟨.arg, 0⟩ Address Len rx).esc.range Address.toNat n =
      (List.range n).map fun i => if i = 0 then UInt8.ofNat v else frame (4 * i) := by
  refine List.map_inj_left.2 fun i hi => ?_
  rw [List.mem_range] at hi
  rw [writeReply_esc hres (by omega)]
  show (passArg h v frame).memory .arg (0 + 4 * i) = _
  rw [passArg_arg, Nat.zero_add]
  rcases Nat.eq_zero_or_pos i with rfl | h0
  · simp
  · rw [if_neg (by omega), if_neg (by omega)]

theorem leBytes_eq_map (n v : ℕ) : leBytes n v = (List.range n).map fun i => UInt8.ofNat (v / 256 ^ i) := by
  refine List.ext_getElem? fun i => ?_
  rw [getElem?_leBytes]
  by_cases hi : i < n <;> simp [hi]

/-- `frame` has the bytes of `v` after the first one at the starts of the words behind the first. -/
def Follows (frame : ℕ → UInt8) (v n : ℕ) : Prop := ∀ i, 0 < i → i < n → frame (4 * i) = UInt8.ofNat (v / 256 ^ i)

theorem write_arg_iff (hres : 0 ≤ (writeReply S (passArg h v frame) ⟨.arg, 0⟩ Address Len rx).res) (w : ℕ) :
    (hwEscWrite S (passArg h v frame) ⟨.arg, 0⟩ Address Len rx).esc.range Address.toNat Len.toNat =
      leBytes Len.toNat w ↔ (0 < Len.toNat → UInt8.ofNat v = UInt8.ofNat w) ∧ Follows frame w Len.toNat := by
  rw [write_arg_esc hres le_rfl, leBytes_eq_map, List.map_inj_left]
  constructor
  · intro heq
    refine ⟨fun h0 => ?_, fun i h0 hi => ?_⟩
    · simpa using heq 0 (List.mem_range.2 h0)
    · simpa [h0.ne'] using heq i (List.mem_range.2 hi)
  · rintro ⟨hfirst, hrest⟩ i hi
    rw [List.mem_range] at hi
    rcases Nat.eq_zero_or_pos i with rfl | h0
    · simpa using hfirst hi
    · rw [if_neg h0.ne']
      exact hrest i h0 hi

theorem wordReads_eq {n : UInt16} {read : WordAccess} (hread : (n, read) ∈ wordReads S signed) :
    read = fun h v Address frame rx => hwEscRead S signed (passArg h v frame) ⟨.arg, 0⟩ Address n rx := by
  simp only [wordReads, List.mem_cons, List.not_mem_nil, or_false, Prod.mk.injEq] at hread
  rcases hread with ⟨rfl, rfl⟩ | ⟨rfl, rfl⟩ | ⟨rfl, rfl⟩ <;> rfl

theorem wordWrites_eq {n : UInt16} {write : WordAccess} (hwrite : (n, write) ∈ wordWrites S) :
    write = fun h v Address frame rx => hwEscWrite S (passArg h v frame) ⟨.arg, 0⟩ Address n rx := by
  simp only [wordWrites, List.mem_cons, List.not_mem_nil, or_false, Prod.mk.injEq] at hwrite
  rcases hwrite with ⟨rfl, rfl⟩ | ⟨rfl, rfl⟩ | ⟨rfl, rfl⟩ <;> rfl

theorem ofBytes_eq_zero {bs : List UInt8} : ofBytes bs = 0 ↔ ∀ b ∈ bs, b = 0 := by
  induction bs with
  | nil => simp [ofBytes]
  | cons b bs ih =>
    rw [List.forall_mem_cons, ← ih, ofBytes, ← UInt8.toNat_inj, UInt8.toNat_zero]
    omega

theorem alEvent_iff (e : Esc) : (0 : UInt16).toNat = e.value ESC_AL_EVENT_OFFSET 2 ↔ e 0x220 = 0 ∧ e 0x221 = 0 := by
  rw [UInt16.toNat_zero, eq_comm, Esc.value, ofBytes_eq_zero]
  simp [Esc.range, ESC_AL_EVENT_OFFSET, List.range_succ]

/-- The read leaves the uninitialised variable as it is, so `op` combines that with the argument. -/
theorem combineALEventMask_var (op : UInt16 → UInt16 → UInt16) (mask : ℕ) (m : UInt16) (j : Junk) :
    (combineALEventMask S signed op h mask m j).var mask 2 = (op (.ofNat (h.var mask 2)) m).toNat := by
  have hlt : (op (.ofNat (h.var mask 2)) m).toNat < 256 ^ 2 := UInt16.toNat_lt _
  have hread : (hwEscReadWord S signed h (h.var mask 2) ESC_AL_EVENTMASK_OFFSET j.frame j.rx).var mask 2 =
      h.var mask 2 := read_arg_var mask 2
  have hload := load_store (m := (hwEscReadWord S signed h (h.var mask 2) ESC_AL_EVENTMASK_OFFSET j.frame
    j.rx).memory) (p := ⟨Obj.var mask, 0⟩) (leBytes 2 (op (.ofNat (h.var mask 2)) m).toNat)
  rw [length_leBytes] at hload
  simp only [combineALEventMask, hread]
  rw [Host.var, hload, ofBytes_leBytes, Nat.mod_eq_of_lt hlt]

/-- `HW_EscWriteWord` at the end of the mask functions succeeds. -/
def MaskStored (S : Spidev) (signed : Bool) (op : UInt16 → UInt16 → UInt16) (h : Host) (mask : ℕ) (m : UInt16)
    (j : Junk) : Prop :=
  let h := combineALEventMask S signed op h mask m j
  0 ≤ (writeReply S (passArg h (h.var mask 2) j.frame') ⟨.arg, 0⟩ ESC_AL_EVENTMASK_OFFSET 2 j.rx').res

/-- The register has gone from `r` to `op r m`. -/
def Masked (op : UInt16 → UInt16 → UInt16) (h h' : Host) (m : UInt16) : Prop :=
  h'.esc.range ESC_AL_EVENTMASK_OFFSET.toNat 2 =
    leBytes 2 (op (.ofNat (h.esc.value ESC_AL_EVENTMASK_OFFSET 2)) m).toNat

/-- The low byte of the uninitialised variable and the frame of the write happen to give `op r m`. -/
def MaskGuessed (op : UInt16 → UInt16 → UInt16) (h : Host) (mask : ℕ) (m : UInt16) (j : Junk) : Prop :=
  let new := (op (.ofNat (h.esc.value ESC_AL_EVENTMASK_OFFSET 2)) m).toNat
  UInt8.ofNat (op (.ofNat (h.var mask 2)) m).toNat = UInt8.ofNat new ∧ j.frame' 4 = UInt8.ofNat (new / 256)

theorem masked_iff {op : UInt16 → UInt16 → UInt16} {mask : ℕ} {m : UInt16} {j : Junk}
    (hres : MaskStored S signed op h mask m j) :
    Masked op h (writeALEventMask S signed op h mask m j) m ↔ MaskGuessed op h mask m j := by
  have hfollows : ∀ v, Follows j.frame' v 2 ↔ j.frame' 4 = UInt8.ofNat (v / 256) := fun v =>
    ⟨fun hf => hf 1 (by decide) (by decide), fun hf i h0 hi => by
      obtain rfl : i = 1 := by omega
      exact hf⟩
  refine (write_arg_iff hres _).trans ?_
  rw [combineALEventMask_var]
  exact and_congr ⟨fun h' => h' (by decide), fun h' _ => h'⟩ (hfollows _)

/-- For every device, host and value: exactly when a word read leaves the variable with the value at the
address, a word write stores the value, the event register is the one of the controller, and the two
mask functions set and reset bits of the mask register. -/
theorem esc_words (S : Spidev) (signed : Bool) (h : Host) :
    (∀ n read, (n, read) ∈ wordReads S signed → ∀ x (Address : UInt16) frame rx,
      ((read h (h.var x n.toNat) Address frame rx).var x n.toNat = h.esc.value Address n.toNat ↔
        h.var x n.toNat = h.esc.value Address n.toNat)) ∧
    (∀ n write, (n, write) ∈ wordWrites S → ∀ v (Address : UInt16) frame rx,
      0 ≤ (writeReply S (passArg h v frame) ⟨.arg, 0⟩ Address n rx).res →
      ((write h v Address frame rx).esc.range Address.toNat n.toNat = leBytes n.toNat v ↔
        Follows frame v n.toNat)) ∧
    (∀ register ∈ [hwGetALEventRegister, hwGetALEventRegisterIsr],
      (register.toNat = h.esc.value ESC_AL_EVENT_OFFSET 2 ↔ h.esc 0x220 = 0 ∧ h.esc 0x221 = 0)) ∧
    ∀ mask m j,
      (MaskStored S signed (· ||| ·) h mask m j →
        (Masked (· ||| ·) h (setALEventMask S signed h mask m j) m ↔ MaskGuessed (· ||| ·) h mask m j)) ∧
      (MaskStored S signed (· &&& ·) h mask m j →
        (Masked (· &&& ·) h (resetALEventMask S signed h mask m j) m ↔ MaskGuessed (· &&& ·) h mask m j)) := by
  refine ⟨fun n read hread x Address frame rx => ?_, fun n write hwrite v Address frame rx hres => ?_, ?_,
    fun mask m j => ⟨masked_iff, masked_iff⟩⟩
  · rw [wordReads_eq hread, read_arg_var]
  · rw [wordWrites_eq hwrite, write_arg_iff hres]
    exact ⟨fun h' => h'.2, fun h' => ⟨fun _ => rfl, h'⟩⟩
  · simp only [hwGetALEventRegister, hwGetALEventRegisterIsr, List.forall_mem_cons]
    exact ⟨alEvent_iff h.esc, alEvent_iff h.esc, fun r hr => absurd hr List.not_mem_nil⟩

def zeros : Junk := ⟨fun _ => 0, fun _ => 0, fun _ => 0, fun _ => 0⟩

theorem esc_words_counting :
    ((hwEscReadDWord wire false counting (counting.var 0 4) 0x910 (fun _ => 0) fun _ => 0).var 0 4 =
      counting.esc.value 0x910 4 ↔ counting.var 0 4 = counting.esc.value 0x910 4) ∧
    ((hwEscWriteWord wire counting 0x1234 0x130 (fun _ => 0) fun _ => 0).esc.range 0x130 2 = leBytes 2 0x1234 ↔
      Follows (fun _ => 0) 0x1234 2) ∧
    (hwGetALEventRegister.toNat = counting.esc.value ESC_AL_EVENT_OFFSET 2 ↔
      counting.esc 0x220 = 0 ∧ counting.esc 0x221 = 0) ∧
    (Masked (· ||| ·) counting (setALEventMask wire false counting 0 4 zeros) 4 ↔
      MaskGuessed (· ||| ·) counting 0 4 zeros) ∧
    (Masked (· &&& ·) counting (resetALEventMask wire false counting 0 4 zeros) 4 ↔
      MaskGuessed (· &&& ·) counting 0 4 zeros) := by
  obtain ⟨hread, hwrite, hevent, hmask⟩ := esc_words wire false counting
  exact ⟨hread 4 _ (by simp [wordReads]) 0 0x910 _ _,
    hwrite 2 (hwEscWriteWord wire) (by simp [wordWrites]) 0x1234 0x130 _ _ (by decide),
    hevent _ List.mem_cons_self, (hmask 0 4 zeros).1 (by unfold MaskStored; decide),
    (hmask 0 4 zeros).2 (by unfold MaskStored; decide)⟩

/-- On a bus without failures a variable of ones stays one, a write stores a zero for the second byte, the
event register reads as zero, and the mask is set and reset in what the stack held. -/
theorem esc_words_broken :
    (∀ n read, (n, read) ∈ wordReads wire false → ¬ ∀ h x (Address : UInt16) frame rx,
      (read h (h.var x n.toNat) Address frame rx).var x n.toNat = h.esc.value Address n.toNat) ∧
    (∀ n write, (n, write) ∈ wordWrites wire → ¬ ∀ h v (Address : UInt16) frame rx,
      (write h v Address frame rx).esc.range Address.toNat n.toNat = leBytes n.toNat v) ∧
    ¬ (∀ h : Host, hwGetALEventRegister.toNat = h.esc.value ESC_AL_EVENT_OFFSET 2) ∧
    ¬ (∀ h mask m j, Masked (· ||| ·) h (setALEventMask wire false h mask m j) m) ∧
    ¬ ∀ h mask m j, Masked (· &&& ·) h (resetALEventMask wire false h mask m j) m := by
  refine ⟨fun n read hread h => ?_, fun n write hwrite h => ?_, fun h => ?_, fun h => ?_, fun h => ?_⟩
  · simp only [wordReads, List.mem_cons, List.not_mem_nil, or_false, Prod.mk.injEq] at hread
    rcases hread with ⟨rfl, rfl⟩ | ⟨rfl, rfl⟩ | ⟨rfl, rfl⟩ <;>
      exact absurd (h counting 0 0x910 (fun _ => 0) fun _ => 0) (by decide)
  · simp only [wordWrites, List.mem_cons, List.not_mem_nil, or_false, Prod.mk.injEq] at hwrite
    rcases hwrite with ⟨rfl, rfl⟩ | ⟨rfl, rfl⟩ | ⟨rfl, rfl⟩ <;>
      exact absurd (h counting 0x1234 0x990 (fun _ => 0) fun _ => 0) (by decide)
  · exact absurd (h counting) (by decide)
  · exact absurd (h counting 0 4 zeros) (by unfold Masked; decide)
  · exact absurd (h counting 0 4 zeros) (by unfold Masked; decide)

end Ecat
end Dcs
