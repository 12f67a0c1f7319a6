import Dcs.Mailbox

/-!
# Where the two mailbox buffers are

At every moment the four pointers are in one of five positions (`Pos`), and each function of `mailbox.c`
moves between them as its comments say. What the master sees of it is said without buffers: the datagram
it has read last (`kept`), the one in the send mailbox (`waiting`), and the one that was taken off for a
repeated one (`stored`).
-/

namespace Dcs
namespace Ecat
open Function

/-! ### Datagrams -/

namespace Tmbx

variable {b b' : Tmbx} {i : ℕ} {w : UInt16}

theorem word_congr (h : ∀ k < i + 2, b k = b' k) : b.word i = b'.word i := by
  unfold word
  rw [h i (by omega), h (i + 1) (by omega)]

theorem setWord_of_ne {k : ℕ} (h₁ : k ≠ i) (h₂ : k ≠ i + 1) : b.setWord i w k = b k := by
  unfold setWord
  rw [update_of_ne h₂, update_of_ne h₁]

theorem setWord_hi : b.setWord i w (i + 1) = .ofNat (w.toNat / 256) := by
  unfold setWord; rw [update_self]

theorem setWord_lo : b.setWord i w i = .ofNat w.toNat := by
  unfold setWord
  rw [update_of_ne (by omega), update_self]

theorem word_setWord_of_le {k : ℕ} (h : k + 2 ≤ i) : (b.setWord i w).word k = b.word k := by
  unfold word
  rw [setWord_of_ne (by omega) (by omega), setWord_of_ne (by omega) (by omega)]

@[simp] theorem word_setWord : (b.setWord i w).word i = w := by
  unfold word
  rw [setWord_lo, setWord_hi, ← UInt16.toNat_inj]
  have hw := w.toNat_lt
  simp only [UInt16.toNat_ofNat', UInt8.toNat_ofNat']
  omega

theorem Short.len (h : b.Short MAX_MBX_SIZE.toNat) :
    (b.length + .ofNat MBX_HEADER_SIZE).toNat = b.length.toNat + MBX_HEADER_SIZE := by
  have h' : b.length.toNat ≤ 256 := h
  rw [UInt16.toNat_add]
  show (b.length.toNat + 6) % 65536 = b.length.toNat + 6
  omega

theorem length_congr (h : ∀ k < 2, b k = b' k) : b.length = b'.length := word_congr (i := 0) h

theorem datagram_congr (hshort : b.Short MAX_MBX_SIZE.toNat)
    (h : ∀ k < b.length.toNat + MBX_HEADER_SIZE, b' k = b k) : b'.length = b.length ∧ b'.datagram = b.datagram := by
  have hlen : b'.length = b.length := length_congr fun k hk => h k (by unfold MBX_HEADER_SIZE; omega)
  refine ⟨hlen, ?_⟩
  unfold datagram
  rw [hlen]
  refine List.map_inj_left.2 fun k hk => h k ?_
  rw [← hshort.len]
  exact List.mem_range.1 hk

end Tmbx

/-- The counter in the header of a datagram. -/
def key (d : List UInt8) : UInt8 := d.getD 5 0 >>> 4

variable {b : Tmbx} {c : UInt8}

theorem key_datagram (h : b.Short MAX_MBX_SIZE.toNat) : key b.datagram = b.counter := by
  have hlen := h.len
  have hget : b.datagram.getD 5 0 = b 5 := by
    unfold Tmbx.datagram
    rw [hlen, List.getD_eq_getElem?_getD, List.getElem?_map, List.getElem?_range (by unfold MBX_HEADER_SIZE; omega)]
    rfl
  have h4 := (b 4).toNat_lt
  have h5 := (b 5).toNat_lt
  have hshift : (b.flags >>> MBX_SHIFT_COUNTER).toNat = (b 5).toNat / 16 := by
    have hflags : b.flags.toNat = (b 4).toNat + 256 * (b 5).toNat := by
      simp only [Tmbx.flags, Tmbx.word, UInt16.toNat_ofNat', Nat.reduceAdd]
      omega
    show b.flags.toNat >>> 12 = _
    rw [Nat.shiftRight_eq_div_pow, hflags]
    omega
  rw [key, hget, ← UInt8.toNat_inj, Tmbx.counter, UInt16.toNat_toUInt8, hshift]
  show (b 5).toNat >>> 4 = _
  rw [Nat.shiftRight_eq_div_pow]
  omega

/-- The counter is in the part that every send mailbox has room for. -/
theorem key_take {n : ℕ} (hn : MIN_MBX_SIZE.toNat ≤ n) (d : List UInt8) : key (d.take n) = key d := by
  have hn' : 5 < n := lt_of_lt_of_le (by decide) hn
  rw [key, key, List.getD_eq_getElem?_getD, List.getD_eq_getElem?_getD, List.getElem?_take_of_lt hn']

theorem shift_counter {f c : UInt16} (hc : c.toNat < 16) :
    (f &&& ~~~ MBX_MASK_COUNTER ||| c <<< MBX_SHIFT_COUNTER) >>> MBX_SHIFT_COUNTER = c := by
  have hmask : ~~~ MBX_MASK_COUNTER = 0x0FFF := by decide
  have hshift : MBX_SHIFT_COUNTER.toNat % 16 = 12 := by decide
  have h0 : (0x0FFF : UInt16).toNat >>> 12 = 0 := by decide
  rw [hmask, ← UInt16.toNat_inj, UInt16.toNat_shiftRight, UInt16.toNat_or, UInt16.toNat_and,
    UInt16.toNat_shiftLeft, hshift, Nat.shiftRight_or_distrib, Nat.shiftRight_and_distrib, h0, Nat.and_zero,
    Nat.zero_or, Nat.shiftLeft_eq, Nat.shiftRight_eq_div_pow]
  omega

theorem counter_stamp (hc : c.toNat < 8) : (stamp b c).counter = c := by
  have hflags : (stamp b c).flags = b.flags &&& ~~~ MBX_MASK_COUNTER ||| c.toUInt16 <<< MBX_SHIFT_COUNTER :=
    Tmbx.word_setWord
  rw [Tmbx.counter, hflags, shift_counter (by rw [UInt8.toNat_toUInt16]; omega)]
  simp

theorem length_stamp : (stamp b c).length = b.length := Tmbx.word_setWord_of_le (by omega)

theorem Tmbx.Short.stamp {n : ℕ} (h : b.Short n) : (stamp b c).Short n := by
  unfold Tmbx.Short
  rwa [length_stamp]

theorem short_errorResponse (result : UInt16) : (errorResponse b result).Short MAX_MBX_DATA_SIZE := by
  unfold Tmbx.Short errorResponse Tmbx.length
  simp only [MBX_HEADER_SIZE]
  rw [Tmbx.word_setWord_of_le (by omega), Tmbx.word_setWord_of_le (by omega),
    Tmbx.word_setWord_of_le (by omega), Tmbx.word_setWord]
  decide

/-- The only byte that can be wrong in the send mailbox is the last one of a datagram that leaves one byte of
it free. -/
theorem sendBytes_getElem {u16SendMbxSize : UInt16} {i : ℕ} (hi : i < (b.length + .ofNat MBX_HEADER_SIZE).toNat)
    (hsize : i < u16SendMbxSize.toNat) :
    (sendBytes u16SendMbxSize b)[i]? = some (if i + 2 = u16SendMbxSize.toNat ∧
      (b.length + .ofNat MBX_HEADER_SIZE).toNat + 1 = u16SendMbxSize.toNat then
        b ((b.length + .ofNat MBX_HEADER_SIZE).toNat / 2 * 2) else b i) := by
  unfold sendBytes
  set len := b.length + .ofNat MBX_HEADER_SIZE
  rw [List.getElem?_map, List.getElem?_range (lt_min hi hsize), Option.map_some]
  congr 1
  dsimp only
  split
  · rename_i hle
    rw [UInt16.le_iff_toNat_le] at hle
    rw [if_neg (by omega)]
  · rename_i hle
    rw [UInt16.le_iff_toNat_le, not_le] at hle
    split
    · have hi' : i + 2 = u16SendMbxSize.toNat := by omega
      have hleft : (u16SendMbxSize - len).toUInt8.toNat = 1 := by
        rw [UInt16.toNat_toUInt8, UInt16.toNat_sub_of_le _ _ (by rw [UInt16.le_iff_toNat_le]; omega)]
        omega
      rw [hi', Nat.sub_self, hleft, if_pos (by omega), if_pos (by omega), Nat.add_zero]
    · rw [if_neg (by omega)]

theorem Tmbx.length_datagram : b.datagram.length = (b.length + .ofNat MBX_HEADER_SIZE).toNat := by
  unfold Tmbx.datagram
  rw [List.length_map, List.length_range]

theorem Tmbx.getElem?_datagram {i : ℕ} (hi : i < (b.length + .ofNat MBX_HEADER_SIZE).toNat) :
    b.datagram[i]? = some (b i) := by
  unfold Tmbx.datagram
  rw [List.getElem?_map, List.getElem?_range hi]
  rfl

/-- With an even send mailbox the datagram reaches it as it is, as far as there is room for it. -/
theorem sendBytes_eq {u16SendMbxSize : UInt16} (hsize : u16SendMbxSize.toNat % 2 = 0) :
    sendBytes u16SendMbxSize b = b.datagram.take u16SendMbxSize.toNat := by
  have hlen : (sendBytes u16SendMbxSize b).length = (b.datagram.take u16SendMbxSize.toNat).length := by
    unfold sendBytes
    rw [List.length_map, List.length_range, List.length_take, Tmbx.length_datagram, min_comm]
  refine List.ext_getElem? fun i => ?_
  by_cases hi : i < (b.datagram.take u16SendMbxSize.toNat).length
  · have hi' := hi
    rw [List.length_take, Tmbx.length_datagram, lt_min_iff] at hi'
    rw [sendBytes_getElem hi'.2 hi'.1, List.getElem?_take_of_lt hi'.1, Tmbx.getElem?_datagram hi'.2]
    congr 1
    split
    · congr 1
      omega
    · rfl
  · rw [List.getElem?_eq_none (Nat.le_of_not_lt hi), List.getElem?_eq_none (by rw [hlen]; exact Nat.le_of_not_lt hi)]

/-! ### The positions of the pointers -/

structure At (m : Mailbox) (p : Pos) : Prop where
  write : m.psWriteMbx = p.write
  read : m.psReadMbx = p.read
  kept : m.psRepeatMbx = p.kept
  store : m.psStoreMbx = p.store
  full : m.bSendMbxIsFull = p.full

namespace Mailbox

variable (m : Mailbox)

/-- The buffer holds a datagram that may still be sent. -/
def Holds (i : Fin 2) : Prop := m.psReadMbx = some i ∨ m.psRepeatMbx = some i ∨ m.psStoreMbx = some i

/-- As much of a datagram as the send mailbox has room for. -/
def cut (d : List UInt8) : List UInt8 := d.take m.u16SendMbxSize.toNat

def kept : Option (List UInt8) := m.psRepeatMbx.map fun i => m.cut (m.asMbx i).datagram

def waiting : Option (List UInt8) :=
  if m.bSendMbxIsFull then m.psReadMbx.map fun i => m.cut (m.asMbx i).datagram else none

def stored : Option (List UInt8) := m.psStoreMbx.map fun i => m.cut (m.asMbx i).datagram

end Mailbox

/-- What holds of the mailbox between two calls as long as it runs. `n` is the length that no datagram in it
exceeds: what `MBX_MailboxWriteInd` lets through, or what a buffer has room for. -/
structure Good (n : ℕ) (m : Mailbox) : Prop where
  bound : MAX_MBX_DATA_SIZE ≤ n ∧ n ≤ MAX_MBX_SIZE.toNat
  pos : ∃ p, At m p
  short : ∀ i, m.Holds i → (m.asMbx i).Short n
  overrun : n = MAX_MBX_DATA_SIZE → m.overrun = false
  status : m.nAlStatus &&& STATE_MASK ≠ STATE_INIT
  running : m.bMbxRunning = true
  receive : m.u16ReceiveMbxSize ≤ MAX_MBX_SIZE
  send : MIN_MBX_SIZE ≤ m.u16SendMbxSize
  even : m.u16SendMbxSize.toNat % 2 = 0
  unsent : m.pCoeSendStored = none
  flags : m.u8MailboxSendReqStored = 0 ∨ m.u8MailboxSendReqStored = COE_SERVICE
  flags_idle : m.bSendMbxIsFull = false → m.u8MailboxSendReqStored = 0
  counter_le : m.u8MbxReadCounter.toNat ≤ 8
  counter : ∀ d ∈ m.sent.getLast?, 1 ≤ (key d).toNat ∧ (key d).toNat + 1 = m.u8MbxReadCounter.toNat

/-- The variables that only `MBX_CopyToSendMailbox` and its callers for the send mailbox touch are as they
were, and the free buffer is still free. -/
structure Same (m m' : Mailbox) : Prop where
  write : m'.psWriteMbx = m.psWriteMbx
  kept : m'.kept = m.kept
  waiting : m'.waiting = m.waiting
  stored : m'.stored = m.stored
  sendMbx : m'.sendMbx = m.sendMbx
  full : m'.bSendMbxIsFull = m.bSendMbxIsFull
  toggle : m'.bMbxRepeatToggle = m.bMbxRepeatToggle
  locked : m'.bReceiveMbxIsLocked = m.bReceiveMbxIsLocked
  pending : m'.bPendingMbxResponse = m.bPendingMbxResponse
  sent : m'.sent = m.sent
  size : m'.u16SendMbxSize = m.u16SendMbxSize

/-- A new datagram was put into the empty send mailbox. -/
structure Sends (m m' : Mailbox) (d : List UInt8) : Prop where
  kept : m'.kept = m.kept
  waiting : m'.waiting = some (m.cut d)
  stored : m'.stored = none
  sendMbx : m'.sendMbx = some (m.cut d)
  full : m'.bSendMbxIsFull = true
  toggle : m'.bMbxRepeatToggle = m.bMbxRepeatToggle
  locked : m'.bReceiveMbxIsLocked = m.bReceiveMbxIsLocked
  pending : m'.bPendingMbxResponse = false
  sent : m'.sent = m.sent ++ [d]
  size : m'.u16SendMbxSize = m.u16SendMbxSize
  new : m.sent.getLast?.map key ≠ some (key d)

variable {n : ℕ} {m m' m'' : Mailbox} {d : List UInt8} {w : Fin 2}

theorem cut_congr (h : m'.u16SendMbxSize = m.u16SendMbxSize) : m'.cut = m.cut := by
  funext d
  rw [Mailbox.cut, Mailbox.cut, h]

theorem Same.trans (h : Same m m') (h' : Same m' m'') : Same m m'' where
  write := h'.write.trans h.write
  kept := h'.kept.trans h.kept
  waiting := h'.waiting.trans h.waiting
  stored := h'.stored.trans h.stored
  sendMbx := h'.sendMbx.trans h.sendMbx
  full := h'.full.trans h.full
  toggle := h'.toggle.trans h.toggle
  locked := h'.locked.trans h.locked
  pending := h'.pending.trans h.pending
  sent := h'.sent.trans h.sent
  size := h'.size.trans h.size

theorem Same.sends (h : Same m m') (h' : Sends m' m'' d) : Sends m m'' d where
  kept := h'.kept.trans h.kept
  waiting := by rw [h'.waiting, cut_congr h.size]
  stored := h'.stored
  sendMbx := by rw [h'.sendMbx, cut_congr h.size]
  full := h'.full
  toggle := h'.toggle.trans h.toggle
  locked := h'.locked.trans h.locked
  pending := h'.pending
  sent := by rw [h'.sent, h.sent]
  size := h'.size.trans h.size
  new := by rw [← h.sent]; exact h'.new

theorem add_one_ne (i : Fin 2) : i + 1 ≠ i := by decide +revert

namespace Good

/-- No datagram in the mailbox is longer than `MBX_MailboxWriteInd` lets through. -/
theorem accepted (h : Good n m) (hb : b.Short n) : b.Short MAX_MBX_SIZE.toNat := Nat.le_trans hb h.bound.2

theorem not_overrun (h : Good n m) (hb : b.Short n) (hn : n = MAX_MBX_DATA_SIZE) :
    (m.overrun || decide (MAX_MBX_SIZE.toNat < b.length.toNat + MBX_HEADER_SIZE)) = false := by
  have hb' : b.length.toNat ≤ 250 := Nat.le_trans hb hn.le
  have hmax : ¬ MAX_MBX_SIZE.toNat < b.length.toNat + MBX_HEADER_SIZE := fun hlt => by
    have hlt' : 256 < b.length.toNat + 6 := hlt
    omega
  rw [h.overrun hn, decide_eq_false hmax, Bool.or_false]

theorem free (h : Good n m) (hfull : m.bSendMbxIsFull = false) :
    (At m .fresh ∨ ∃ i, At m (.idle i)) ∧ ∃ w, m.psWriteMbx = some w := by
  obtain ⟨p, hp⟩ := h.pos
  have hf := hp.full
  rw [hfull] at hf
  cases p with
  | fresh => exact ⟨.inl hp, 0, hp.write⟩
  | idle i => exact ⟨.inr ⟨i, hp⟩, i, hp.write⟩
  | first => cases hf
  | waiting i => cases hf
  | repeated i => cases hf

theorem waiting_free (hfull : m.bSendMbxIsFull = false) : m.waiting = none := by
  unfold Mailbox.waiting
  rw [hfull]
  rfl

/-- The free buffer holds nothing that may still be sent. -/
theorem not_holds (h : Good n m) (hw : m.psWriteMbx = some w) : ¬ m.Holds w := by
  obtain ⟨p, hp⟩ := h.pos
  unfold Mailbox.Holds
  rw [hp.read, hp.kept, hp.store]
  rw [hp.write] at hw
  have hne := add_one_ne w
  cases p with
  | fresh => simp [Pos.read, Pos.kept, Pos.store]
  | first =>
    obtain rfl : 1 = w := Option.some.inj hw
    simp [Pos.read, Pos.kept, Pos.store]
  | idle i =>
    obtain rfl : i = w := Option.some.inj hw
    simp [Pos.read, Pos.kept, Pos.store, hne]
  | waiting i => cases hw
  | repeated i => cases hw

/-- Whatever is written into the free buffer. -/
theorem update_free (h : Good n m) (hw : m.psWriteMbx = some w) (b : Tmbx) :
    Good n { m with asMbx := update m.asMbx w b } ∧ Same m { m with asMbx := update m.asMbx w b } := by
  have hne : ∀ i, m.Holds i → update m.asMbx w b i = m.asMbx i := fun i hi =>
    update_of_ne (by rintro rfl; exact h.not_holds hw hi) _ _
  have hd : ∀ i, m.Holds i → m.cut (update m.asMbx w b i).datagram = m.cut (m.asMbx i).datagram :=
    fun i hi => by rw [hne i hi]
  constructor
  · obtain ⟨p, hp⟩ := h.pos
    refine ⟨h.bound, ⟨p, hp.write, hp.read, hp.kept, hp.store, hp.full⟩, fun i hi => ?_, h.overrun, h.status,
      h.running, h.receive, h.send, h.even, h.unsent, h.flags, h.flags_idle, h.counter_le, h.counter⟩
    show (update m.asMbx w b i).Short n
    rw [hne i hi]
    exact h.short i hi
  · refine ⟨rfl, Option.map_congr fun i hi => hd i (.inr (.inl hi)), ?_,
      Option.map_congr fun i hi => hd i (.inr (.inr hi)), rfl, rfl, rfl, rfl, rfl, rfl, rfl⟩
    unfold Mailbox.waiting
    dsimp only
    split
    · exact Option.map_congr fun i hi => hd i (.inl hi)
    · rfl

end Good

/-! ### Sending -/

theorem nextCounter_le {c : UInt8} (hc : c.toNat ≤ 8) : 1 ≤ (nextCounter c).toNat ∧ (nextCounter c).toNat ≤ 7 ∧
    ((nextCounter c).toNat = c.toNat ∨ (nextCounter c).toNat = 1 ∧ c.toNat % 8 = 0) := by
  have hmod : (c &&& 0x07).toNat = c.toNat % 8 := by
    rw [UInt8.toNat_and]
    exact Nat.and_two_pow_sub_one_eq_mod c.toNat 3
  unfold nextCounter
  split
  · rename_i h0
    rw [h0] at hmod
    exact ⟨le_rfl, by decide, .inr ⟨rfl, hmod.symm⟩⟩
  · rename_i h0
    have hne : c.toNat % 8 ≠ 0 := fun h => h0 (by rw [← UInt8.toNat_inj, hmod, h]; rfl)
    exact ⟨by omega, by omega, .inl rfl⟩

theorem copy_eq (hstatus : m.nAlStatus &&& STATE_MASK ≠ STATE_INIT) (hrun : m.bMbxRunning = true)
    (hfull : m.bSendMbxIsFull = false) (p : Fin 2) :
    mbxCopyToSendMailbox m p = (0, fillSendMailbox m p) := by
  unfold mbxCopyToSendMailbox
  rw [if_neg hstatus, if_neg (by simp [hrun]), if_neg (by simp [hfull])]

theorem sendReq_eq (h : Good n m) (hfull : m.bSendMbxIsFull = false) (p : Fin 2) (flags : UInt8) :
    mbxMailboxSendReq m p flags = (0, { fillSendMailbox (stampCounter m p) p with
      u8MbxReadCounter := nextCounter m.u8MbxReadCounter + 1
      sent := m.sent ++ [(stamp (m.asMbx p) (nextCounter m.u8MbxReadCounter)).datagram]
      u8MailboxSendReqStored :=
        if flags &&& FRAGMENTS_FOLLOW ≠ 0 then m.u8MailboxSendReqStored ||| (flags &&& ~~~ FRAGMENTS_FOLLOW)
        else m.u8MailboxSendReqStored }) := by
  have hcopy : mbxCopyToSendMailbox (stampCounter m p) p = (0, fillSendMailbox (stampCounter m p) p) :=
    copy_eq (m := stampCounter m p) h.status h.running hfull p
  unfold mbxMailboxSendReq
  rw [if_neg h.status]
  dsimp only
  rw [hcopy]
  simp [stampCounter, fillSendMailbox]

def Flags (flags : UInt8) : Prop := flags = 0 ∨ flags = COE_SERVICE ∨ flags = FRAGMENTS_FOLLOW ||| COE_SERVICE

theorem stored_flags {flags : UInt8} (h : Flags flags) :
    (if flags &&& FRAGMENTS_FOLLOW ≠ 0 then (0 : UInt8) ||| (flags &&& ~~~ FRAGMENTS_FOLLOW) else 0) = 0 ∨
      (if flags &&& FRAGMENTS_FOLLOW ≠ 0 then (0 : UInt8) ||| (flags &&& ~~~ FRAGMENTS_FOLLOW) else 0) =
        COE_SERVICE := by
  obtain rfl | rfl | rfl := h <;> decide

/-- `MBX_MailboxSendReq` with the free buffer succeeds and sends what the buffer holds. -/
theorem Good.sendReq (h : Good n m) (hfull : m.bSendMbxIsFull = false) (hw : m.psWriteMbx = some w)
    (hshort : (m.asMbx w).Short n) {flags : UInt8} (hflags : Flags flags) :
    (mbxMailboxSendReq m w flags).1 = 0 ∧ Good n (mbxMailboxSendReq m w flags).2 ∧
      ∃ d, Sends m (mbxMailboxSendReq m w flags).2 d := by
  rw [sendReq_eq h hfull]
  obtain ⟨hc1, hc7, hc⟩ := nextCounter_le h.counter_le
  set c := nextCounter m.u8MbxReadCounter
  set b := stamp (m.asMbx w) c
  have hb : b.Short n := hshort.stamp
  have hkey : key b.datagram = c := by rw [key_datagram (h.accepted hb), counter_stamp (by omega)]
  have hc' : (c + 1).toNat = c.toNat + 1 := by
    rw [UInt8.toNat_add]
    show (c.toNat + 1) % 256 = _
    omega
  have hnew : m.sent.getLast?.map key ≠ some (key b.datagram) := by
    intro heq
    obtain ⟨d, hd, hkd⟩ := Option.map_eq_some_iff.1 heq
    have hcount := h.counter d hd
    rw [hkd, hkey] at hcount
    omega
  have hbuf : (fillSendMailbox (stampCounter m w) w).asMbx = update m.asMbx w b := by
    simp [fillSendMailbox, stampCounter, hw, b, c]
  have hread : (fillSendMailbox (stampCounter m w) w).psReadMbx = some w := by
    simp [fillSendMailbox, stampCounter, hw]
  have hsend : (fillSendMailbox (stampCounter m w) w).sendMbx = some (m.cut b.datagram) := by
    simp only [fillSendMailbox, stampCounter, update_self]
    rw [sendBytes_eq h.even]
    rfl
  have hover : (fillSendMailbox (stampCounter m w) w).overrun =
      (m.overrun || decide (MAX_MBX_SIZE.toNat < b.length.toNat + MBX_HEADER_SIZE)) := by
    simp only [fillSendMailbox, stampCounter, update_self, b, c]
  have hkept : ∀ i, m.psRepeatMbx = some i → update m.asMbx w b i = m.asMbx i := fun i hi =>
    update_of_ne (by rintro rfl; exact h.not_holds hw (.inr (.inl hi))) _ _
  obtain ⟨hpos, -⟩ := h.free hfull
  have hstore : m.psStoreMbx = none := by
    rcases hpos with hp | ⟨i, hp⟩ <;> exact hp.store
  refine ⟨rfl, ⟨h.bound, ?_, fun i hi => ?_, hover.trans ∘ h.not_overrun hb, h.status, h.running, h.receive, h.send,
    h.even, h.unsent, ?_, ?_, ?_, ?_⟩, b.datagram, ?_⟩
  · rcases hpos with hp | ⟨i, hp⟩
    · obtain rfl : 0 = w := Option.some.inj (hp.write.symm.trans hw)
      refine ⟨.first, ?_, hread, hp.kept, hp.store, rfl⟩
      simp [fillSendMailbox, stampCounter, hp.read, Pos.read, Pos.write]
    · obtain rfl : i = w := Option.some.inj (hp.write.symm.trans hw)
      refine ⟨.waiting i, ?_, hread, hp.kept, hp.store, rfl⟩
      simp [fillSendMailbox, stampCounter, hp.read, Pos.read, Pos.write]
  · show ((fillSendMailbox (stampCounter m w) w).asMbx i).Short n
    rw [hbuf]
    rcases hi with hi | hi | hi
    · obtain rfl : w = i := Option.some.inj (hread.symm.trans hi)
      rwa [update_self]
    · rw [hkept i hi]
      exact h.short i (.inr (.inl hi))
    · exact absurd (hstore.symm.trans hi) (by simp)
  · show (if _ then _ else _) = _ ∨ (if _ then _ else _) = _
    rw [h.flags_idle hfull]
    exact stored_flags hflags
  · intro hfalse
    cases hfalse
  · show (c + 1).toNat ≤ 8
    omega
  · intro d hd
    obtain rfl : b.datagram = d := by simpa using hd
    rw [hkey]
    exact ⟨hc1, hc'.symm⟩
  · refine ⟨?_, ?_, ?_, hsend, rfl, rfl, rfl, rfl, rfl, rfl, hnew⟩
    · refine Option.map_congr fun i hi => ?_
      show m.cut ((fillSendMailbox (stampCounter m w) w).asMbx i).datagram = _
      rw [hbuf, hkept i hi]
    · show (if true = true then Option.map (fun i => m.cut ((fillSendMailbox (stampCounter m w) w).asMbx i).datagram)
        (fillSendMailbox (stampCounter m w) w).psReadMbx else none) = _
      rw [if_pos rfl, hread, hbuf]
      show some (m.cut (update m.asMbx w b w).datagram) = _
      rw [update_self]
    · show Option.map _ m.psStoreMbx = none
      rw [hstore]
      rfl

end Ecat
end Dcs
