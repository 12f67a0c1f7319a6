import Dcs.Lib.Memory

/-!
# The EtherCAT hardware layer (`hw.c`)

`HW_EscRead` and `HW_EscWrite` exchange one SPI message with the EtherCAT slave controller. The buffer
comes as `MEM_ADDR *`, which is `UINT32 *`, and `Len` is a number of bytes: the loops go over `Len`
elements of four bytes and use the low byte of each. `ioctl` and the controller behind it are the
parameter `Spidev`.
-/

namespace Dcs
namespace Ecat
open CMem Memory

/-- The memory of the controller. -/
abbrev Esc := ℕ → UInt8

/-- The `n` bytes at `a`. -/
def Esc.range (e : Esc) (a n : ℕ) : List UInt8 := (List.range n).map fun i => e (a + i)

/-- What a transfer returns, leaves in the receive buffer and leaves in the controller. -/
structure Reply where
  res : ℤ
  rxBuffer : ℕ → UInt8
  esc : Esc

/-- `ioctl (spidev, SPI_IOC_MESSAGE(1), &xfer)` with `tx_buf` and the `rx_buf` before it: the length of
the message, or a negative error. -/
structure Spidev where
  ioctl : Esc → List UInt8 → (ℕ → UInt8) → Reply
  res_eq : ∀ esc tx rx, 0 ≤ (ioctl esc tx rx).res → (ioctl esc tx rx).res = tx.length
  read_reply : ∀ esc hi lo data rx, 0 ≤ (ioctl esc (0x03 :: hi :: lo :: data) rx).res → ∀ i < data.length,
    (ioctl esc (0x03 :: hi :: lo :: data) rx).rxBuffer (3 + i) = esc (256 * hi.toNat + lo.toNat + i)
  write_store : ∀ esc hi lo data rx, 0 ≤ (ioctl esc (0x02 :: hi :: lo :: data) rx).res →
    (ioctl esc (0x02 :: hi :: lo :: data) rx).esc.range (256 * hi.toNat + lo.toNat) data.length = data

/-- The variables of the stack, and the parameter of the accessor that is running. -/
inductive Obj
  | var (i : ℕ)
  | arg
deriving DecidableEq, Repr

structure Host where
  memory : Memory Obj
  esc : Esc

/-- `*((UINT8*)&Address+i)`. -/
def addressByte (Address : UInt16) (i : ℕ) : UInt8 := .ofNat (Address.toNat / 256 ^ i)

/-- A `char` as `UINT32`; whether `char` is signed depends on the target. -/
def widen (signed : Bool) (b : UInt8) : ℕ :=
  if signed ∧ 128 ≤ b.toNat then 0xFFFFFF00 + b.toNat else b.toNat

section
variable (S : Spidev) (signed : Bool)

def readReply (h : Host) (Address Len : UInt16) (rx : ℕ → UInt8) : Reply :=
  S.ioctl h.esc (0x03 :: addressByte Address 1 :: addressByte Address 0 :: List.replicate Len.toNat 0xFF) rx

/-- `HW_EscRead`; `rx` is in the uninitialised `rxBuffer`. Every result but `0` copies. -/
def hwEscRead (h : Host) (pData : Pointer Obj) (Address Len : UInt16) (rx : ℕ → UInt8) : Host :=
  let reply := readReply S h Address Len rx
  { memory :=
      if reply.res ≠ 0 then
        h.memory.storeEach pData 4 (fun i => widen signed (reply.rxBuffer (3 + i))) Len.toNat
      else h.memory
    esc := reply.esc }

def hwEscReadIsr := hwEscRead S signed

def hwEscReadMbxMem := hwEscRead S signed

/-- `pData[i]` as a `char`. -/
def element (h : Host) (pData : Pointer Obj) (i : ℕ) : UInt8 :=
  .ofNat (ofBytes (h.memory.load (pData.add (4 * i)) 4))

def writeReply (h : Host) (pData : Pointer Obj) (Address Len : UInt16) (rx : ℕ → UInt8) : Reply :=
  S.ioctl h.esc (0x02 :: addressByte Address 1 :: addressByte Address 0 ::
    (List.range Len.toNat).map (element h pData)) rx

/-- `HW_EscWrite`; the result of the transfer is not looked at. -/
def hwEscWrite (h : Host) (pData : Pointer Obj) (Address Len : UInt16) (rx : ℕ → UInt8) : Host :=
  { h with esc := (writeReply S h pData Address Len rx).esc }

def hwEscWriteIsr := hwEscWrite S

def hwEscWriteMbxMem := hwEscWrite S

abbrev Access := Host → Pointer Obj → UInt16 → UInt16 → (ℕ → UInt8) → Host

def reads : List Access := [hwEscRead S signed, hwEscReadIsr S signed, hwEscReadMbxMem S signed]

def writes : List Access := [hwEscWrite S, hwEscWriteIsr S, hwEscWriteMbxMem S]

end

/-! ### The bytes that are moved -/

/-- The three high bytes of a widened `char`. -/
def ext (signed : Bool) (b : UInt8) : UInt8 := if signed ∧ 128 ≤ b.toNat then 0xFF else 0

/-- Byte `k` of a buffer whose elements are the widened bytes `b`. -/
def widened (signed : Bool) (b : ℕ → UInt8) (k : ℕ) : UInt8 :=
  if k % 4 = 0 then b (k / 4) else ext signed (b (k / 4))

variable {S : Spidev} {signed : Bool} {h : Host} {p : Pointer Obj} {Address Len : UInt16} {rx : ℕ → UInt8}

theorem ext_ext (b : UInt8) : ext signed (ext signed b) = ext signed b := by
  unfold ext
  by_cases hb : signed ∧ 128 ≤ b.toNat
  · rw [if_pos hb]; exact if_pos ⟨hb.1, by decide⟩
  · rw [if_neg hb]; exact if_neg fun h' => absurd h'.2 (by decide)

theorem byte_widen (b : UInt8) (j : ℕ) (hj : j < 4) :
    UInt8.ofNat (widen signed b / 256 ^ j) = if j = 0 then b else ext signed b := by
  have hlt : b.toNat < 256 := b.toNat_lt
  rw [← UInt8.toNat_inj, UInt8.toNat_ofNat']
  unfold widen ext
  obtain rfl | rfl | rfl | rfl : j = 0 ∨ j = 1 ∨ j = 2 ∨ j = 3 := by omega
  all_goals by_cases hb : signed ∧ 128 ≤ b.toNat
  all_goals simp only [hb, and_self, ↓reduceIte, OfNat.ofNat_ne_zero, one_ne_zero]
  all_goals simp
  all_goals omega

theorem address_eq (Address : UInt16) :
    256 * (addressByte Address 1).toNat + (addressByte Address 0).toNat = Address.toNat := by
  have hlt : Address.toNat < 65536 := Address.toNat_lt
  simp only [addressByte, UInt8.toNat_ofNat', Nat.pow_one, Nat.pow_zero, Nat.div_one]
  omega

theorem element_eq (i : ℕ) : element h p i = h.memory p.obj (p.offset + 4 * i) := by
  rw [← UInt8.toNat_inj, element, UInt8.toNat_ofNat']
  simp only [load, List.range_succ, List.range_zero, List.nil_append, List.map_cons,
    List.map_nil, List.cons_append, ofBytes, Pointer.add, Nat.add_zero]
  have hlt := (h.memory p.obj (p.offset + 4 * i)).toNat_lt
  omega

theorem readReply_rx (hres : 0 ≤ (readReply S h Address Len rx).res) {i : ℕ} (hi : i < Len.toNat) :
    (readReply S h Address Len rx).rxBuffer (3 + i) = h.esc (Address.toNat + i) := by
  rw [← address_eq Address]
  exact S.read_reply _ _ _ _ _ hres i (by rwa [List.length_replicate])

theorem writeReply_esc (hres : 0 ≤ (writeReply S h p Address Len rx).res) {i : ℕ} (hi : i < Len.toNat) :
    (hwEscWrite S h p Address Len rx).esc (Address.toNat + i) = h.memory p.obj (p.offset + 4 * i) := by
  have hstore := S.write_store _ _ _ _ _ hres
  rw [address_eq, List.length_map, List.length_range, Esc.range, List.map_inj_left] at hstore
  rw [← element_eq]
  exact hstore i (List.mem_range.2 hi)

/-- A read that copies leaves the widened bytes of the receive buffer. -/
theorem hwEscRead_add (hres : (readReply S h Address Len rx).res ≠ 0) (k : ℕ) :
    (hwEscRead S signed h p Address Len rx).memory p.obj (p.offset + k) =
      if k < 4 * Len.toNat then widened signed (fun i => (readReply S h Address Len rx).rxBuffer (3 + i)) k
      else h.memory p.obj (p.offset + k) := by
  simp only [hwEscRead, if_pos hres]
  rw [storeEach_add (by decide), byte_widen _ _ (Nat.mod_lt _ (by decide))]
  rfl

theorem hwEscRead_outside {o : Obj} {k : ℕ} (hk : ¬ (o = p.obj ∧ p.offset ≤ k)) :
    (hwEscRead S signed h p Address Len rx).memory o k = h.memory o k := by
  simp only [hwEscRead]
  split
  · exact storeEach_outside hk _
  · rfl

/-! ### What is transported -/

/-- The first `Len` bytes of the buffer are those of the controller, and no other byte has changed. -/
def Delivered (h h' : Host) (p : Pointer Obj) (Address Len : UInt16) : Prop :=
  h'.memory.load p Len.toNat = h.esc.range Address.toNat Len.toNat ∧
  ∀ o k, ¬ (o = p.obj ∧ p.offset ≤ k ∧ k < p.offset + Len.toNat) → h'.memory o k = h.memory o k

/-- All bytes of the controller after the first one, and the bytes of the buffer up to four times its
length, are the high bytes that the first byte is widened by. -/
def Flat (signed : Bool) (h : Host) (p : Pointer Obj) (Address Len : UInt16) : Prop :=
  (∀ j, 0 < j → j < Len.toNat → h.esc (Address.toNat + j) = ext signed (h.esc Address.toNat)) ∧
  ∀ k, Len.toNat ≤ k → k < 4 * Len.toNat → h.memory p.obj (p.offset + k) = ext signed (h.esc Address.toNat)

/-- Where the bytes after the first one are its high bytes, so are those of the widened buffer. -/
theorem widened_of_flat {b : ℕ → UInt8} {n : ℕ} (hb : ∀ j, 0 < j → j < n → b j = ext signed (b 0)) {k : ℕ}
    (h0 : 0 < k) (hk : k < 4 * n) : widened signed b k = ext signed (b 0) := by
  unfold widened
  by_cases hmod : k % 4 = 0
  · rw [if_pos hmod]
    exact hb _ (by omega) (by omega)
  rw [if_neg hmod]
  rcases Nat.eq_zero_or_pos (k / 4) with hdiv | hdiv
  · rw [hdiv]
  · rw [hb _ hdiv (by omega), ext_ext]

/-- The widened buffer starts with the bytes themselves only if they are the high bytes of the first. -/
theorem flat_of_widened {b : ℕ → UInt8} {n : ℕ} (hb : ∀ i < n, widened signed b i = b i) (j : ℕ)
    (h0 : 0 < j) (hj : j < n) : b j = ext signed (b 0) := by
  induction j using Nat.strong_induction_on with
  | _ j ih =>
    rw [← hb j hj, widened]
    by_cases hmod : j % 4 = 0
    · rw [if_pos hmod]
      exact ih _ (by omega) (by omega) (by omega)
    rw [if_neg hmod]
    rcases Nat.eq_zero_or_pos (j / 4) with hdiv | hdiv
    · rw [hdiv]
    · rw [ih _ (by omega) hdiv (by omega), ext_ext]

theorem hwEscRead_copied (hres : 0 ≤ (readReply S h Address Len rx).res) {k : ℕ} (hk : k < 4 * Len.toNat) :
    (hwEscRead S signed h p Address Len rx).memory p.obj (p.offset + k) =
      widened signed (fun i => h.esc (Address.toNat + i)) k := by
  have hne : (readReply S h Address Len rx).res ≠ 0 := by
    have hlen := S.res_eq _ _ _ hres
    intro h0
    rw [readReply] at h0
    rw [h0] at hlen
    simp only [List.length_cons] at hlen
    omega
  have hdiv : k / 4 < Len.toNat := by omega
  rw [hwEscRead_add hne, if_pos hk, widened, widened, readReply_rx hres hdiv]

theorem delivered_iff (hres : 0 ≤ (readReply S h Address Len rx).res) :
    Delivered h (hwEscRead S signed h p Address Len rx) p Address Len ↔ Flat signed h p Address Len := by
  have hcopy : ∀ k < 4 * Len.toNat, (hwEscRead S signed h p Address Len rx).memory p.obj (p.offset + k) =
      widened signed (fun i => h.esc (Address.toNat + i)) k := fun k hk => hwEscRead_copied hres hk
  constructor
  · rintro ⟨hload, hrest⟩
    have hfirst : ∀ i < Len.toNat, widened signed (fun i => h.esc (Address.toNat + i)) i =
        h.esc (Address.toNat + i) := fun i hi => by
      rw [← hcopy i (by omega)]
      exact List.map_inj_left.1 hload i (List.mem_range.2 hi)
    have hflat := flat_of_widened hfirst
    refine ⟨hflat, fun k hk hk' => ?_⟩
    rw [← hrest _ _ fun h' => by omega, hcopy k hk', widened_of_flat hflat (by omega) hk']
    rfl
  · rintro ⟨hflat, hfill⟩
    refine ⟨List.map_inj_left.2 fun i hi => ?_, fun o k hk => ?_⟩
    · rw [List.mem_range] at hi
      rw [hcopy i (by omega)]
      rcases Nat.eq_zero_or_pos i with rfl | h0
      · rfl
      · rw [widened_of_flat hflat h0 (by omega), hflat i h0 hi]
        rfl
    · by_cases hin : o = p.obj ∧ p.offset ≤ k
      · obtain ⟨rfl, hle⟩ := hin
        obtain ⟨k, rfl⟩ := Nat.exists_eq_add_of_le hle
        rcases Nat.lt_or_ge k (4 * Len.toNat) with hk' | hk'
        · have hlen : Len.toNat ≤ k := by
            by_contra hlt
            exact hk ⟨rfl, hle, by omega⟩
          rw [hcopy k hk', hfill k hlen hk']
          rcases Nat.eq_zero_or_pos k with rfl | h0
          · omega
          · exact widened_of_flat hflat h0 hk'
        · simp only [hwEscRead]
          split
          · rw [storeEach_add (by decide), if_neg (by omega)]
          · rfl
      · exact hwEscRead_outside hin

/-- The buffer already holds the widened bytes of what a failed transfer leaves to copy. -/
def Stale (signed : Bool) (h : Host) (p : Pointer Obj) (Len : UInt16) (reply : Reply) : Prop :=
  ∀ k < 4 * Len.toNat, h.memory p.obj (p.offset + k) = widened signed (fun i => reply.rxBuffer (3 + i)) k

theorem untouched_iff (hres : (readReply S h Address Len rx).res < 0) :
    (hwEscRead S signed h p Address Len rx).memory = h.memory ↔
      Stale signed h p Len (readReply S h Address Len rx) := by
  have hadd : ∀ k, (hwEscRead S signed h p Address Len rx).memory p.obj (p.offset + k) =
      if k < 4 * Len.toNat then widened signed (fun i => (readReply S h Address Len rx).rxBuffer (3 + i)) k
      else h.memory p.obj (p.offset + k) := hwEscRead_add (by omega)
  constructor
  · intro heq k hk
    rw [← heq, hadd, if_pos hk]
  · intro hstale
    funext o k
    by_cases hin : o = p.obj ∧ p.offset ≤ k
    · obtain ⟨rfl, hle⟩ := hin
      obtain ⟨k, rfl⟩ := Nat.exists_eq_add_of_le hle
      rw [hadd]
      split
      · rename_i hk; exact (hstale k hk).symm
      · rfl
    · exact hwEscRead_outside hin

/-- Every fourth byte of the buffer repeats the byte at a quarter of its place. -/
def Spread (h : Host) (p : Pointer Obj) (Len : UInt16) : Prop :=
  ∀ i < Len.toNat, h.memory p.obj (p.offset + 4 * i) = h.memory p.obj (p.offset + i)

theorem written_iff (hres : 0 ≤ (writeReply S h p Address Len rx).res) :
    (hwEscWrite S h p Address Len rx).esc.range Address.toNat Len.toNat = h.memory.load p Len.toNat ↔
      Spread h p Len := by
  unfold Esc.range load Spread
  rw [List.map_inj_left]
  refine forall_congr' fun i => ?_
  rw [List.mem_range]
  refine forall_congr' fun hi => ?_
  rw [writeReply_esc hres hi]

/-- The bytes of the buffer between its words are the high bytes that the word's first byte is
widened by. -/
def Narrow (signed : Bool) (h : Host) (p : Pointer Obj) (Len : UInt16) : Prop :=
  ∀ k < Len.toNat, k % 4 ≠ 0 →
    h.memory p.obj (p.offset + k) = ext signed (h.memory p.obj (p.offset + (k - k % 4)))

theorem round_trip_iff {q : Pointer Obj} {rx' : ℕ → UInt8} (hres : 0 ≤ (writeReply S h p Address Len rx).res)
    (hres' : 0 ≤ (readReply S (hwEscWrite S h p Address Len rx) Address Len rx').res) :
    (hwEscRead S signed (hwEscWrite S h p Address Len rx) q Address Len rx').memory.load q Len.toNat =
      h.memory.load p Len.toNat ↔ Narrow signed h p Len := by
  have hback : ∀ k < Len.toNat, (hwEscRead S signed (hwEscWrite S h p Address Len rx) q Address Len
      rx').memory q.obj (q.offset + k) =
        if k % 4 = 0 then h.memory p.obj (p.offset + k)
        else ext signed (h.memory p.obj (p.offset + (k - k % 4))) := fun k hk => by
    have hword : 4 * (k / 4) = k - k % 4 := by omega
    rw [hwEscRead_copied hres' (by omega), widened, writeReply_esc hres (by omega), hword]
    by_cases hmod : k % 4 = 0
    · rw [if_pos hmod, if_pos hmod, hmod, Nat.sub_zero]
    · rw [if_neg hmod, if_neg hmod]
  rw [load_eq_iff]
  refine forall_congr' fun k => forall_congr' fun hk => ?_
  rw [hback k hk]
  by_cases hmod : k % 4 = 0
  · rw [if_pos hmod]
    exact ⟨fun _ h' => absurd hmod h', fun _ => rfl⟩
  · rw [if_neg hmod]
    exact ⟨fun h' _ => h'.symm, fun h' => (h' hmod).symm⟩

theorem eq_of_mem_reads {read : Access} (hread : read ∈ reads S signed) : read = hwEscRead S signed := by
  simp only [reads, List.mem_cons, List.not_mem_nil, or_false] at hread
  rcases hread with rfl | rfl | rfl <;> rfl

theorem eq_of_mem_writes {write : Access} (hwrite : write ∈ writes S) : write = hwEscWrite S := by
  simp only [writes, List.mem_cons, List.not_mem_nil, or_false] at hwrite
  rcases hwrite with rfl | rfl | rfl <;> rfl

/-- For every device, buffer, address and length: exactly when a read that succeeds delivers the bytes, a
read that fails leaves the memory alone, a write stores the bytes, and a read brings them back. -/
theorem esc_transport (S : Spidev) (signed : Bool) (h : Host) (p : Pointer Obj) (Address Len : UInt16)
    (rx : ℕ → UInt8) :
    (∀ read ∈ reads S signed,
      (0 ≤ (readReply S h Address Len rx).res →
        (Delivered h (read h p Address Len rx) p Address Len ↔ Flat signed h p Address Len)) ∧
      ((readReply S h Address Len rx).res < 0 →
        ((read h p Address Len rx).memory = h.memory ↔ Stale signed h p Len (readReply S h Address Len rx)))) ∧
    ∀ write ∈ writes S, 0 ≤ (writeReply S h p Address Len rx).res →
      ((write h p Address Len rx).esc.range Address.toNat Len.toNat = h.memory.load p Len.toNat ↔
        Spread h p Len) ∧
      ∀ read ∈ reads S signed, ∀ q rx',
        0 ≤ (readReply S (write h p Address Len rx) Address Len rx').res →
        ((read (write h p Address Len rx) q Address Len rx').memory.load q Len.toNat =
          h.memory.load p Len.toNat ↔ Narrow signed h p Len) := by
  refine ⟨fun read hread => ?_, fun write hwrite hres => ?_⟩
  · rw [eq_of_mem_reads hread]
    exact ⟨delivered_iff, untouched_iff⟩
  · rw [eq_of_mem_writes hwrite]
    refine ⟨written_iff hres, fun read hread q rx' hres' => ?_⟩
    rw [eq_of_mem_reads hread]
    exact round_trip_iff hres hres'

/-- A bus on which every transfer succeeds. -/
def wire : Spidev where
  ioctl esc tx rx :=
    match tx with
    | cmd :: hi :: lo :: data =>
      let a := 256 * hi.toNat + lo.toNat
      if cmd = 0x03 then ⟨tx.length, fun i => esc (a + (i - 3)), esc⟩
      else if cmd = 0x02 then ⟨tx.length, rx, fun k => if a ≤ k then data[k - a]?.getD (esc k) else esc k⟩
      else ⟨tx.length, rx, esc⟩
    | _ => ⟨tx.length, rx, esc⟩
  res_eq esc tx rx _ := by
    split
    · dsimp only
      split
      · rfl
      · split <;> rfl
    · rfl
  read_reply esc hi lo data rx _ i _ := by
    show esc (256 * hi.toNat + lo.toNat + (3 + i - 3)) = _
    rw [Nat.add_sub_cancel_left]
  write_store esc hi lo data rx _ := by
    refine List.ext_getElem (by rw [Esc.range, List.length_map, List.length_range]) fun i _ hi' => ?_
    simp [Esc.range, hi']

/-- A bus on which every transfer fails with `-EIO` and leaves the buffers alone. -/
def cut : Spidev where
  ioctl esc _ rx := ⟨-5, rx, esc⟩
  res_eq _ _ _ h := absurd h (by show ¬ (0 : ℤ) ≤ -5; decide)
  read_reply _ _ _ _ _ h := absurd h (by show ¬ (0 : ℤ) ≤ -5; decide)
  write_store _ _ _ _ _ h := absurd h (by show ¬ (0 : ℤ) ≤ -5; decide)

/-- A controller whose byte `a` is `a + 1`, and a host whose memory is full of ones. -/
def counting : Host := ⟨fun _ _ => 1, fun a => .ofNat (a + 1)⟩

theorem esc_transport_counting :
    (Delivered counting (hwEscRead wire false counting ⟨.var 0, 0⟩ 0x800 8 fun _ => 0) ⟨.var 0, 0⟩ 0x800 8 ↔
      Flat false counting ⟨.var 0, 0⟩ 0x800 8) ∧
    ((hwEscRead cut false counting ⟨.var 0, 0⟩ 0x800 8 fun _ => 0).memory = counting.memory ↔
      Stale false counting ⟨.var 0, 0⟩ 8 (readReply cut counting 0x800 8 fun _ => 0)) ∧
    ((hwEscWrite wire counting ⟨.var 0, 0⟩ 0x800 8 fun _ => 0).esc.range 0x800 8 =
      counting.memory.load ⟨.var 0, 0⟩ 8 ↔ Spread counting ⟨.var 0, 0⟩ 8) ∧
    ((hwEscRead wire false (hwEscWrite wire counting ⟨.var 0, 0⟩ 0x800 8 fun _ => 0) ⟨.var 1, 0⟩ 0x800 8
      fun _ => 0).memory.load ⟨.var 1, 0⟩ 8 = counting.memory.load ⟨.var 0, 0⟩ 8 ↔
        Narrow false counting ⟨.var 0, 0⟩ 8) := by
  have hwire := esc_transport wire false counting ⟨.var 0, 0⟩ 0x800 8 fun _ => 0
  have hcut := esc_transport cut false counting ⟨.var 0, 0⟩ 0x800 8 fun _ => 0
  have hread : ∀ S, hwEscRead S false ∈ reads S false := fun S => List.mem_cons_self
  have hwrite := hwire.2 (hwEscWrite wire) List.mem_cons_self (by decide)
  exact ⟨(hwire.1 _ (hread wire)).1 (by decide), (hcut.1 _ (hread cut)).2 (by decide), hwrite.1,
    hwrite.2 _ (hread wire) _ _ (by decide)⟩

/-- Two bytes read come back as two words, a failed read copies what was in the receive buffer, and a
write takes the first byte of each of two words. -/
theorem esc_transport_broken :
    ¬ (∀ S signed h p Address Len rx, 0 ≤ (readReply S h Address Len rx).res →
      Delivered h (hwEscRead S signed h p Address Len rx) p Address Len) ∧
    ¬ (∀ S signed h p Address Len rx, (readReply S h Address Len rx).res < 0 →
      (hwEscRead S signed h p Address Len rx).memory = h.memory) ∧
    ¬ (∀ S h p (Address Len : UInt16) rx, 0 ≤ (writeReply S h p Address Len rx).res →
      (hwEscWrite S h p Address Len rx).esc.range Address.toNat Len.toNat = h.memory.load p Len.toNat) ∧
    ¬ ∀ S signed h p (Address Len : UInt16) rx q rx', 0 ≤ (writeReply S h p Address Len rx).res →
      0 ≤ (readReply S (hwEscWrite S h p Address Len rx) Address Len rx').res →
      (hwEscRead S signed (hwEscWrite S h p Address Len rx) q Address Len rx').memory.load q Len.toNat =
        h.memory.load p Len.toNat := by
  refine ⟨fun h => ?_, fun h => ?_, fun h => ?_, fun h => ?_⟩
  · exact absurd (h wire false counting ⟨.var 0, 0⟩ 0 2 (fun _ => 0) (by decide)).1 (by decide)
  · exact absurd (congrFun (congrFun (h cut false counting ⟨.var 0, 0⟩ 0 2 (fun _ => 0) (by decide)) (.var 0)) 0)
      (by decide)
  · exact absurd (h wire ⟨fun _ k => .ofNat k, fun _ => 0⟩ ⟨.var 0, 0⟩ 0 2 (fun _ => 0) (by decide)) (by decide)
  · exact absurd (h wire false ⟨fun _ k => .ofNat k, fun _ => 0⟩ ⟨.var 0, 0⟩ 0 2 (fun _ => 0) ⟨.var 0, 0⟩
      (fun _ => 0) (by decide) (by decide)) (by decide)

end Ecat
end Dcs
