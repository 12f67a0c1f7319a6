import Dcs.DriverStepMoves
import Dcs.Sysfs

/-!
# What an attribute reads and writes

A device node exists from `device_create_with_groups` to `device_destroy`, and its attributes can be
used at any step in between. `attributes_reach` says at which steps an attribute gets to its own
register: after `probe` has stored a mapped base and before `remove` unmaps it. `sys_read_node` of
PID looks for `P` and `I` at every entry of the device list, so it must be the last entry, too.
-/

namespace Dcs
namespace Steps
variable {Reg : Type} {D : Driver Reg} {s : Steps Reg} {v : DevT}

/-- `v` is the node of `d`, which is at place `l` and has the structure `x` at `p`. -/
structure NodeOf (s : Steps Reg) (v : DevT) (d : PlatDev) (l : Label) (p : Ptr) (x : DevData Reg) : Prop where
  pc : s.pc d = .at l p
  node : l.hasNode = true
  heap : s.world.heap p = some x
  devt : x.devt = v

/-- The handler gets the address of `r` in the mapped range of the device of node `v`. -/
def Reaches (D : Driver Reg) (s : Steps Reg) (v : DevT) (r : Reg) (address : Except Outcome IoAddr) : Prop :=
  ∃ d l p x m, s.NodeOf v d l p x ∧ s.world.mapped m = some d ∧ address = .ok ⟨some m, D.offset r⟩

/-- The device of node `v` is between the set-up of its addresses and `iounmap`, `of_iomap` did not fail,
and, if `oldest`, it is the last entry of the device list. -/
def Served (D : Driver Reg) (s : Steps Reg) (v : DevT) (oldest : Prop) : Prop :=
  ∃ d l p x, s.NodeOf v d l p x ∧ l.io = .set ∧ (x.address D.base).range ≠ none ∧
    (oldest → s.world.deviceList.getLast? = some p)

theorem Inv.nodeOf (hs : s.Inv D) (hv : s.world.nodes v = true) : ∃ d l p x, s.NodeOf v d l p x := by
  obtain ⟨d, l, p, x, hd, hnode, hx, hxv⟩ := hs.node v hv
  exact ⟨d, l, p, x, hd, hnode, hx, hxv⟩

theorem NodeOf.unique (hs : s.Inv D) {d e : PlatDev} {l l' : Label} {p q : Ptr} {x y : DevData Reg}
    (h : s.NodeOf v d l p x) (h' : s.NodeOf v e l' q y) : e = d ∧ l' = l ∧ q = p ∧ y = x := by
  obtain rfl : e = d := hs.devt e d l' l q p y x h'.pc h.pc h'.heap h.heap (hasDevt_of_hasNode h'.node)
    (hasDevt_of_hasNode h.node) (h'.devt.trans h.devt.symm)
  obtain ⟨rfl, rfl⟩ := Pc.at.inj (h'.pc.symm.trans h.pc)
  exact ⟨rfl, rfl, rfl, Option.some.inj (h'.heap.symm.trans h.heap)⟩

theorem Own.address_mapped {w : World Reg} {d e : PlatDev} {l : Label} {p : Ptr} {x : DevData Reg}
    (h : Own D w d l p x) (r : Reg) :
    (∃ m, w.mapped m = some e ∧ x.address r = ⟨some m, D.offset r⟩) ↔
      e = d ∧ l.io = .set ∧ (x.address D.base).range ≠ none := by
  constructor
  · rintro ⟨m, hm, hr⟩
    cases hio : l.io with
    | unset =>
      rw [h.unset hio] at hr
      cases hr
    | set =>
      have hrange : (x.address D.base).range = some m := by
        rw [h.address (by simp [hio]) r] at hr
        exact congrArg IoAddr.range hr
      exact ⟨Option.some.inj (hm.symm.trans (h.mapped hio m hrange)), rfl, by simp [hrange]⟩
    | gone =>
      have hrange : (x.address D.base).range = some m := by
        rw [h.address (by simp [hio]) r] at hr
        exact congrArg IoAddr.range hr
      rw [h.gone hio m hrange] at hm
      cases hm
  · rintro ⟨rfl, hio, hrange⟩
    obtain ⟨m, hm⟩ := Option.ne_none_iff_exists'.1 hrange
    exact ⟨m, h.mapped hio m hm, by rw [h.address (by simp [hio]) r, hm]⟩

theorem isListed_of_set {l : Label} (h : l.io = .set) : l.isListed = true := by
  cases l <;> first | rfl | cases h

theorem hasLock_of_not_isListed {l : Label} (hnode : l.hasNode = true) (h : l.isListed = false) :
    l.hasLock = true := by
  cases l <;> simp_all [Label.hasNode, Label.isListed, Label.hasLock]

theorem NodeOf.devt_ne (hs : s.Inv D) {d : PlatDev} {l : Label} {p : Ptr} {x : DevData Reg}
    (h : s.NodeOf v d l p x) {q : Ptr} (hq : q ∈ s.world.deviceList) (hqp : q ≠ p) :
    ∃ y, s.world.heap q = some y ∧ y.devt ≠ v := by
  obtain ⟨x', hx', hown⟩ := hs.own d l p h.pc
  obtain ⟨y, hy, howner⟩ := hs.entry q hq
  refine ⟨y, hy, fun hv => ?_⟩
  by_cases hl : l.isListed = true
  · exact hqp (hs.distinct q hq p (hown.listed.2 hl) y x hy h.heap (hv.trans h.devt.symm))
  · rcases howner with ⟨e, l', he⟩ | horph
    · obtain ⟨y', hy', hown'⟩ := hs.own e l' q he
      obtain rfl : e = d := hs.devt e d l' l q p y x he h.pc hy h.heap
        (hasDevt_of_isListed (hown'.listed.1 hq)) (hasDevt_of_hasNode h.node) (hv.trans h.devt.symm)
      exact hqp (Pc.at.inj (he.symm.trans h.pc)).2
    · have hlock := hasLock_of_not_isListed h.node (by simpa using hl)
      have hno := horph.nobody d
      rw [h.pc] at hno
      exact absurd (hlock.symm.trans hno) (by decide)

theorem reaches_ok (hs : s.Inv D) {d : PlatDev} {l : Label} {p : Ptr} {x : DevData Reg}
    (h : s.NodeOf v d l p x) {r : Reg} {a : IoAddr} :
    s.Reaches D v r (.ok a) ↔ ∃ m, s.world.mapped m = some d ∧ a = ⟨some m, D.offset r⟩ := by
  constructor
  · rintro ⟨e, l', q, y, m, hnode, hm, ha⟩
    obtain ⟨rfl, -, -, -⟩ := h.unique hs hnode
    exact ⟨m, hm, Except.ok.inj ha⟩
  · rintro ⟨m, hm, rfl⟩
    exact ⟨d, l, p, x, m, h, hm, rfl⟩

theorem served_iff (hs : s.Inv D) {d : PlatDev} {l : Label} {p : Ptr} {x : DevData Reg}
    (h : s.NodeOf v d l p x) {oldest : Prop} :
    s.Served D v oldest ↔ l.io = .set ∧ (x.address D.base).range ≠ none ∧
      (oldest → s.world.deviceList.getLast? = some p) := by
  constructor
  · rintro ⟨e, l', q, y, hnode, hserved⟩
    obtain ⟨rfl, rfl, rfl, rfl⟩ := h.unique hs hnode
    exact hserved
  · exact fun hserved => ⟨d, l, p, x, h, hserved⟩

/-- A handler that takes the address of the entry with its own device number, if there is one. -/
theorem NodeOf.walk (hs : s.Inv D) {d : PlatDev} {l : Label} {p : Ptr} {x : DevData Reg}
    (h : s.NodeOf v d l p x) {r : Reg} {body : DevData Reg → IoAddr → Except Outcome IoAddr}
    (hbody : ∀ x a, body x a = if x.devt = v then .ok (x.address r) else .ok a) (start : IoAddr) :
    s.world.walk body s.world.deviceList start = .ok (if l.isListed = true then x.address r else start) := by
  obtain ⟨x', hx', hown⟩ := hs.own d l p h.pc
  have hskip : ∀ q ∈ s.world.deviceList, q ≠ p →
      ∃ y, s.world.heap q = some y ∧ ∀ t, body y t = .ok t := fun q hq hqp => by
    obtain ⟨y, hy, hne⟩ := h.devt_ne hs hq hqp
    exact ⟨y, hy, fun t => by rw [hbody, if_neg hne]⟩
  by_cases hl : l.isListed = true
  · rw [World.walk_one (hown.listed.2 hl) hs.nodup h.heap hskip, hbody, if_pos h.devt, if_pos hl]
  · have hp : p ∉ s.world.deviceList := fun hp => hl (hown.listed.1 hp)
    rw [World.walk_skip fun q hq => hskip q hq (by rintro rfl; exact hp hq), if_neg hl]

theorem reaches_of_served (hs : s.Inv D) {r : Reg} {body : DevData Reg → IoAddr → Except Outcome IoAddr}
    (hbody : ∀ x a, body x a = if x.devt = v then .ok (x.address r) else .ok a) (h : s.Served D v False)
    (start : IoAddr) : s.Reaches D v r (s.world.walk body s.world.deviceList start) := by
  obtain ⟨d, l, p, x, hnode, hset, hrange, -⟩ := h
  have hown := hs.own_at hnode.pc hnode.heap
  rw [hnode.walk hs hbody, if_pos (isListed_of_set hset), reaches_ok hs hnode, hown.address_mapped r]
  exact ⟨rfl, hset, hrange⟩

theorem reaches_walk (hs : s.Inv D) (hv : s.world.nodes v = true) {r : Reg}
    {body : DevData Reg → IoAddr → Except Outcome IoAddr}
    (hbody : ∀ x a, body x a = if x.devt = v then .ok (x.address r) else .ok a) :
    s.Reaches D v r (s.world.walk body s.world.deviceList .null) ↔ s.Served D v False := by
  refine ⟨?_, fun h => reaches_of_served hs hbody h _⟩
  intro h
  obtain ⟨d, l, p, x, hn⟩ := hs.nodeOf hv
  have hown := hs.own_at hn.pc hn.heap
  rw [hn.walk hs hbody] at h
  by_cases hl : l.isListed = true
  · rw [if_pos hl, reaches_ok hs hn, hown.address_mapped r] at h
    exact (served_iff hs hn).2 ⟨h.2.1, h.2.2, False.elim⟩
  · rw [if_neg hl, reaches_ok hs hn] at h
    obtain ⟨m, -, ha⟩ := h
    cases ha

/-- A handler that takes the address of every entry. -/
theorem reaches_walk_every (hs : s.Inv D) (hv : s.world.nodes v = true) {r : Reg}
    {body : DevData Reg → IoAddr → Except Outcome IoAddr} (hbody : ∀ x a, body x a = .ok (x.address r)) :
    s.Reaches D v r (s.world.walk body s.world.deviceList .null) ↔ s.Served D v True := by
  obtain ⟨d, l, p, x, h⟩ := hs.nodeOf hv
  rw [served_iff hs h]
  cases hlast : s.world.deviceList.getLast? with
  | none =>
    rw [List.getLast?_eq_none_iff.1 hlast, World.walk, reaches_ok hs h]
    refine iff_of_false ?_ fun hserved => by simp at hserved
    rintro ⟨m, -, ha⟩
    cases ha
  | some q =>
    have hq : q ∈ s.world.deviceList := List.mem_of_getLast? hlast
    have halloc : ∀ q ∈ s.world.deviceList, ∃ y, s.world.heap q = some y := fun q hq => by
      obtain ⟨y, hy, -⟩ := hs.entry q hq
      exact ⟨y, hy⟩
    obtain ⟨y, hy, howner⟩ := hs.entry q hq
    rw [World.walk_last halloc hbody hlast hy, reaches_ok hs h]
    rcases howner with ⟨e, l', he⟩ | horph
    · rw [(hs.own_at he hy).address_mapped r]
      constructor
      · rintro ⟨rfl, hset, hrange⟩
        obtain ⟨rfl, rfl⟩ := Pc.at.inj (he.symm.trans h.pc)
        obtain rfl : x = y := Option.some.inj (h.heap.symm.trans hy)
        exact ⟨hset, hrange, fun _ => rfl⟩
      · rintro ⟨hset, hrange, holdest⟩
        obtain rfl : q = p := Option.some.inj (holdest trivial)
        obtain rfl : e = d := hs.inj e d l' l q he h.pc
        obtain ⟨rfl, -⟩ := Pc.at.inj (he.symm.trans h.pc)
        obtain rfl : x = y := Option.some.inj (h.heap.symm.trans hy)
        exact ⟨rfl, hset, hrange⟩
    · refine iff_of_false ?_ fun hserved => ?_
      · rintro ⟨m, -, ha⟩
        rw [horph.address r] at ha
        cases ha
      · obtain rfl : q = p := Option.some.inj (hserved.2.2 trivial)
        obtain rfl : x = y := Option.some.inj (h.heap.symm.trans hy)
        obtain ⟨m, hm⟩ := Option.ne_none_iff_exists'.1 hserved.2.1
        rw [horph.address] at hm
        cases hm

theorem served_congr {P Q : Prop} (h : P ↔ Q) : s.Served D v P ↔ s.Served D v Q := by
  rw [propext h]

/-- In every interleaving of the steps of `probe` and `remove`, the attributes of a node that get to
their register of the mapped range of its device are those of `Served`. -/
theorem attributes_reach (v : DevT) :
    (∀ s, Lts.Reach (stepwise pid) (fun _ _ => True) s → s.world.nodes v = true →
      (∀ a : PidAttr, a.Readable → (s.Reaches pid v a.reg (pidReadAddress s.world v a) ↔
        s.Served pid v (a = .P ∨ a = .I))) ∧
      ∀ a : PidAttr, a.Writable → (s.Reaches pid v a.reg (pidSetAddress s.world v a) ↔
        s.Served pid v False)) ∧
    (∀ s, Lts.Reach (stepwise pwm) (fun _ _ => True) s → s.world.nodes v = true →
      ∀ a : PwmAttr, (s.Reaches pwm v a.reg (pwmAddress s.world v a) ↔ s.Served pwm v False)) ∧
    ∀ s, Lts.Reach (stepwise encoder) (fun _ _ => True) s → s.world.nodes v = true →
      ((∀ junk, s.Reaches encoder v .direction (encoderReadAddress s.world v junk)) ↔
        s.Served encoder v False) := by
  refine ⟨fun s hs hv => ⟨fun a ha => ?_, fun a ha => ?_⟩, fun s hs hv a => ?_, fun s hs hv => ?_⟩
  · have hinv : s.Inv pid := .of_reach hs
    cases a with
    | Update => exact absurd rfl ha
    | P =>
      rw [served_congr (show _ ↔ True by simp)]
      exact reaches_walk_every hinv hv fun x a => by simp [pidReadBody, PidAttr.reg]
    | I =>
      rw [served_congr (show _ ↔ True by simp)]
      exact reaches_walk_every hinv hv fun x a => by simp [pidReadBody, PidAttr.reg]
    | D | State | Emerg =>
      rw [served_congr (show _ ↔ False by simp)]
      exact reaches_walk hinv hv fun x a => rfl
  · have hinv : s.Inv pid := .of_reach hs
    refine reaches_walk hinv hv fun x t => ?_
    cases a with
    | State => exact absurd rfl ha.1
    | Emerg => exact absurd rfl ha.2
    | P | I | D | Update => rfl
  · exact reaches_walk (.of_reach hs) hv fun x t => by cases a <;> rfl
  · have hinv : s.Inv encoder := .of_reach hs
    refine ⟨fun h => ?_, fun h junk => reaches_of_served hinv (fun x t => rfl) h junk⟩
    exact (reaches_walk hinv hv fun x t => rfl).1 (h .null)

theorem attributes_reach_bound :
    let o : World.Services := ⟨some 1, 0, true, some 7⟩
    let s := (stepwise pid).run ⟨.initial 240, fun _ => .idle⟩
      (.probe ⟨0, 0x43C00000⟩ o :: List.replicate 8 (.advance ⟨0, 0x43C00000⟩ o))
    s.Reaches pid ⟨240, 0⟩ .D (pidReadAddress s.world ⟨240, 0⟩ .D) :=
  (((attributes_reach ⟨240, 0⟩).1 _ (.run _ (.init ⟨240, rfl⟩) (by decide)) (by decide)).1 .D (by decide)).2
    ⟨⟨0, 0x43C00000⟩, .bound, 1, _, ⟨rfl, rfl, rfl, rfl⟩, rfl, by decide, by decide⟩

/-- PID: of two devices the second one's `P` is read from the first. PWM: a node is used before its
entry is listed, and the address is null. Encoder: a node is used after `iounmap`. -/
theorem attributes_astray :
    ¬ (∀ s v, Lts.Reach (stepwise pid) (fun _ _ => True) s → s.world.nodes v = true →
      ∀ a : PidAttr, a.Readable → s.Reaches pid v a.reg (pidReadAddress s.world v a)) ∧
    ¬ (∀ s v, Lts.Reach (stepwise pwm) (fun _ _ => True) s → s.world.nodes v = true →
      ∀ a : PwmAttr, s.Reaches pwm v a.reg (pwmAddress s.world v a)) ∧
    ¬ ∀ s v, Lts.Reach (stepwise encoder) (fun _ _ => True) s → s.world.nodes v = true →
      ∀ junk, s.Reaches encoder v .direction (encoderReadAddress s.world v junk) := by
  refine ⟨fun h => ?_, fun h => ?_, fun h => ?_⟩
  · let s := (stepwise pid).run ⟨.initial 240, fun _ => .idle⟩
      (.probe ⟨0, 0x43C00000⟩ ⟨some 1, 0, true, some 7⟩ ::
        List.replicate 8 (.advance ⟨0, 0x43C00000⟩ ⟨none, 0, true, some 7⟩) ++
      .probe ⟨1, 0x43C10000⟩ ⟨some 2, 0, true, some 8⟩ ::
        List.replicate 8 (.advance ⟨1, 0x43C10000⟩ ⟨none, 0, true, some 8⟩))
    have hs : Lts.Reach (stepwise pid) (fun _ _ => True) s := .run _ (.init ⟨240, rfl⟩) (by decide +kernel)
    have hnode : s.world.nodes ⟨240, 1⟩ = true := by decide +kernel
    have haddr : pidReadAddress s.world ⟨240, 1⟩ .P = .ok ⟨some 7, 1⟩ := by decide +kernel
    have hmapped : s.world.mapped 7 = some ⟨0, 0x43C00000⟩ := by decide +kernel
    have hpc : s.pc ⟨0, 0x43C00000⟩ = .at .bound 1 := by decide +kernel
    have hdevt : (s.world.heap 1).map DevData.devt = some ⟨240, 0⟩ := by decide +kernel
    clear_value s
    obtain ⟨d, l, p, x, m, hn, hm, ha⟩ := h s ⟨240, 1⟩ hs hnode .P (by decide)
    rw [haddr] at ha
    obtain rfl : 7 = m := by simpa [PidAttr.reg, pid] using ha
    obtain rfl : (⟨0, 0x43C00000⟩ : PlatDev) = d := Option.some.inj (hmapped.symm.trans hm)
    obtain ⟨rfl, rfl⟩ := Pc.at.inj (hpc.symm.trans hn.pc)
    rw [hn.heap, Option.map_some, hn.devt] at hdevt
    exact absurd hdevt (by decide)
  · obtain ⟨d, l, p, x, m, hn, hm, ha⟩ := h _ ⟨241, 0⟩ (.run [.probe ⟨0, 0x43C10000⟩ ⟨some 1, 0, true, some 7⟩,
      .advance ⟨0, 0x43C10000⟩ ⟨none, 0, true, none⟩, .advance ⟨0, 0x43C10000⟩ ⟨none, 0, true, none⟩]
      (.init ⟨241, rfl⟩) (by decide)) (by decide) .FREQUENCY
    cases ha
  · obtain ⟨d, l, p, x, m, hn, hm, ha⟩ := h _ ⟨242, 0⟩
      (.run (.probe ⟨0, 0x43C20000⟩ ⟨some 1, 0, true, some 7⟩ ::
        List.replicate 8 (.advance ⟨0, 0x43C20000⟩ ⟨none, 0, true, some 7⟩) ++
        [.remove ⟨0, 0x43C20000⟩, .advance ⟨0, 0x43C20000⟩ ⟨none, 0, true, none⟩])
      (.init ⟨242, rfl⟩) (by decide +kernel)) (by decide +kernel) .null
    have ha' : (.ok ⟨some 7, 1⟩ : Except Outcome IoAddr) = .ok ⟨some m, 1⟩ := ha
    obtain rfl : 7 = m := by simpa using ha'
    cases hm

end Steps

end Dcs
