import ChipEight.Proofs.Checked.Machine
import ChipEight.Proofs.Framebuffer.Integers
import ChipEight.Proofs.Framebuffer.Sprite
import ChipEight.Proofs.Word.Integer

/-!
# The checked machine does what the machine does

`Machine.checked` is the state of the checked machine that stands for a machine and a source. From such a state each
part and each handler of the checked machine comes to the state that stands for what the machine does.
-/

namespace ChipEight

def Table.integers {v w : Nat} (t : Table v (BitVec w)) : List Int := t.toList.map fun b => (b.toNat : Int)

/-- The state that stands for a machine and a source. -/
def Machine.checked {ρ : Type} (source : ρ) (m : Machine) : Checked.State ρ where
  memory := m.memory.integers
  slots := m.stack.slots.integers
  pointer := m.stack.pointer.toNat
  cells := m.display.integers
  keys := m.keypad.pressed.toList
  registers := m.registers.integers
  pc := m.pc.toNat
  index := m.index.toNat
  delay := m.delay.toNat
  sound := m.sound.toNat
  drawn := m.drawn
  source

namespace Checked
variable {ρ α β : Type}

theorem run_bind_of_ok {σ : Type} {x : EStateM Fault σ α} {s s' : σ} {a : α} (h : x.run s = .ok a s')
    (f : α → EStateM Fault σ β) : (x >>= f).run s = (f a).run s' := by
  show EStateM.bind x f s = _
  rw [EStateM.bind, show x s = .ok a s' from h]
  rfl

theorem run_bind_of_error {σ : Type} {x : EStateM Fault σ α} {s s' : σ} {fault : Fault} (h : x.run s = .error fault s')
    (f : α → EStateM Fault σ β) : (x >>= f).run s = .error fault s' := by
  show EStateM.bind x f s = _
  rw [EStateM.bind, show x s = .error fault s' from h]

/-- The routine gives a value and leaves a state. -/
def Yields (x : Routine ρ α) (s : State ρ) (a : α) (s' : State ρ) : Prop := x.run s = .ok a s'

def Fails (x : Routine ρ α) (s : State ρ) (fault : Fault) (s' : State ρ) : Prop := x.run s = .error fault s'

theorem Fails.bind {x : Routine ρ α} {s s' : State ρ} {fault : Fault} (h : Fails x s fault s')
    (f : α → Routine ρ β) : Fails (x >>= f) s fault s' :=
  run_bind_of_error h f

theorem Fails.get {f : State ρ → Routine ρ β} {s s' : State ρ} {fault : Fault} (h : Fails (f s) s fault s') :
    Fails (MonadState.get >>= f) s fault s' := h

namespace Yields
variable {x : Routine ρ α} {f : α → Routine ρ β} {s s' s'' : State ρ} {a : α} {b : β}

theorem pure (a : α) (s : State ρ) : Yields (Pure.pure a) s a s := rfl

theorem bind (h : Yields x s a s') (hf : Yields (f a) s' b s'') : Yields (x >>= f) s b s'' :=
  (run_bind_of_ok h f).trans hf

theorem bind_fails {fault : Fault} (h : Yields x s a s') (hf : Fails (f a) s' fault s'') :
    Fails (x >>= f) s fault s'' :=
  (run_bind_of_ok h f).trans hf

theorem get {f : State ρ → Routine ρ β} (h : Yields (f s) s b s') : Yields (MonadState.get >>= f) s b s' := h

theorem modify {f : State ρ → State ρ} (h : f s = s') : Yields (modify f) s () s' := by
  subst h
  rfl

end Yields

/-! ### Lists -/

section
variable {w v : Nat} {s : State ρ}

theorem item_of_getElem? {l : List α} {n : Nat} {a : α} (h : l[n]? = some a) : Yields (item l n) s a s := by
  show (item l (.ofNat n)).run s = _
  rw [item, h]
  rfl

theorem replaced_of_lt {l : List α} {n : Nat} (a : α) (h : n < l.length) :
    Yields (replaced l a n) s (l.set n a) s := by
  show (replaced l a (.ofNat n)).run s = _
  rw [replaced, if_pos h]
  rfl

theorem set_toList (t : Table w α) (i : BitVec w) (a : α) : t.toList.set i.toNat a = (t.set i a).toList :=
  (Vector.toList_set i.isLt).symm

theorem item_toList (t : Table w α) (i : BitVec w) : Yields (item t.toList i.toNat) s t[i] s :=
  item_of_getElem? (t.getElem?_toList i)

theorem replaced_toList (t : Table w α) (i : BitVec w) (a : α) :
    Yields (replaced t.toList a i.toNat) s (t.set i a).toList s :=
  set_toList t i a ▸ replaced_of_lt a (t.length_toList ▸ i.isLt)

theorem item_integers (t : Table w (BitVec v)) (i : BitVec w) :
    Yields (item t.integers i.toNat) s (t[i].toNat : Int) s :=
  item_of_getElem? (by rw [Table.integers, List.getElem?_map, t.getElem?_toList i]; rfl)

theorem replaced_integers (t : Table w (BitVec v)) (i : BitVec w) (b : BitVec v) :
    Yields (replaced t.integers (b.toNat : Int) i.toNat) s (t.set i b).integers s := by
  rw [Table.integers, Table.integers, ← set_toList, List.map_set]
  exact replaced_of_lt _ (by rw [List.length_map, t.length_toList]; exact i.isLt)

end

/-! ### Operands -/

def Operands.ofWord (w : Word) : Operands :=
  ⟨w.toNat, w.kind.toNat, w.x.toNat, w.y.toNat, w.n.toNat, w.nnn.toNat, w.kk.toNat⟩

theorem decode_eq (opcode : Int) : decode opcode = .ofWord (.ofInt opcode) := by
  have hfield (start length : Nat) {mask : Int} (hmask : mask = ((2 ^ length - 1) <<< start : Nat)) :
      ((Word.ofInt opcode).toNat : Int).land mask >>> start =
        ((Word.ofInt opcode).extractLsb' start length).toNat := by
    rw [hmask]
    exact congrArg _ (land_shiftRight (Word.ofInt opcode) start length)
  unfold decode
  rw [land_0xffff]
  exact Operands.ext rfl (hfield 12 4 rfl) (hfield 8 4 rfl) (hfield 4 4 rfl) (hfield 0 4 rfl) (hfield 0 12 rfl)
    (hfield 0 8 rfl)

/-! ### Parts of the machine -/

section
variable {source : ρ} {m : Machine}

theorem register_checked (x : Nibble) :
    Yields (register x.toNat) (m.checked source) (m.registers[x].toNat : Int) (m.checked source) :=
  item_integers m.registers x

theorem setRegister_checked (x : Nibble) {v : Int} {b : Byte} (hv : v = b.toNat) :
    Yields (setRegister x.toNat v) (m.checked source) () ((m.setRegister x b).checked source) := by
  subst hv
  exact (replaced_integers m.registers x b).bind (.modify rfl)

theorem readByte_checked (address : Int) :
    Yields (readByte address) (m.checked source) ((m.memory.read address).toNat : Int) (m.checked source) := by
  unfold readByte
  rw [land_0xfff]
  exact item_integers m.memory (.ofInt 12 address)

theorem writeByte_checked (address value : Int) :
    Yields (writeByte address value) (m.checked source) ()
      ({ m with memory := m.memory.write address value }.checked source) := by
  unfold writeByte
  rw [land_0xff, land_0xfff]
  have hbyte : (0 : Int) ≤ (BitVec.ofInt 8 value).toNat ∧ ((BitVec.ofInt 8 value).toNat : Int) ≤ 255 := by
    have := (BitVec.ofInt 8 value).isLt
    omega
  simp only [if_pos hbyte]
  exact (replaced_integers m.memory (.ofInt 12 address) (.ofInt 8 value)).bind (.modify rfl)

theorem readWord_ofInt (address : Int) : Yields (readWord address) (m.checked source)
    ((m.memory.word (.ofInt address)).toNat : Int) (m.checked source) := by
  have hnext : Address.ofInt (address + 1) = Address.ofInt address + 1 := BitVec.ofInt_add ..
  have hword : (((m.memory.read address).toNat : Int) <<< 8).lor (m.memory.read (address + 1)).toNat =
      ((m.memory.word (.ofInt address)).toNat : Int) := by
    rw [Memory.word, Word.ofBytes, BitVec.toNat_append, ← hnext]
    rfl
  exact (readByte_checked _).bind ((readByte_checked _).bind (hword ▸ .pure _ _))

theorem readWord_checked (a : Address) :
    Yields (readWord a.toNat) (m.checked source) ((m.memory.word a).toNat : Int) (m.checked source) := by
  have hread : Yields _ (m.checked source) _ _ := readWord_ofInt a.toNat
  rwa [Address.ofInt, ofInt_toNat, BitVec.setWidth_eq] at hread

theorem writeBytes_checked (bytes : List Byte) (address : Int) :
    Yields (writeBytes (bytes.map fun b => (b.toNat : Int)) address) (m.checked source) ()
      ({ m with memory := m.memory.store (.ofInt address) bytes }.checked source) := by
  induction bytes generalizing m address with
  | nil => exact .pure _ _
  | cons b bytes ih =>
    have hset : m.memory.write address b.toNat = m.memory.set (Address.ofInt address) b := by
      rw [Memory.write, Byte.ofInt, ofInt_toNat, BitVec.setWidth_eq]
    have hnext : Address.ofInt (address + 1) = Address.ofInt address + 1 := BitVec.ofInt_add ..
    have h := ih (m := { m with memory := m.memory.set (Address.ofInt address) b }) (address + 1)
    rw [hnext] at h
    have hwrite : Yields _ (m.checked source) _ _ := writeByte_checked address b.toNat
    rw [hset] at hwrite
    exact hwrite.bind h

theorem push_checked (a : Address) :
    Yields (push a.toNat) (m.checked source) () ({ m with stack := m.stack.push a }.checked source) := by
  have hpointer : ((m.stack.pointer.toNat : Int) + 1) % 16 = (m.stack.pointer + 1).toNat := by
    rw [BitVec.toNat_add]
    rfl
  have hmove : { m.checked source with pointer := ((m.stack.pointer.toNat : Int) + 1) % 16 } =
      { m with stack := ⟨m.stack.slots, m.stack.pointer + 1⟩ }.checked source := by
    rw [hpointer]
    rfl
  exact (Yields.modify hmove).bind
    ((replaced_integers m.stack.slots (m.stack.pointer + 1) a).bind (.modify rfl))

theorem pop_checked : Yields pop (m.checked source) (m.stack.top.toNat : Int)
    ({ m with stack := m.stack.pop.2 }.checked source) := by
  have hpointer : ((m.stack.pointer.toNat : Int) - 1) % 16 = (m.stack.pointer - 1).toNat := by
    have := m.stack.pointer.isLt
    rw [BitVec.toNat_sub]
    show ((m.stack.pointer.toNat : Int) - 1) % 16 = ((16 - 1 + m.stack.pointer.toNat) % 16 : Nat)
    omega
  have hmove : { m.checked source with pointer := ((m.stack.pointer.toNat : Int) - 1) % 16 } =
      { m with stack := m.stack.pop.2 }.checked source := by
    rw [hpointer]
    rfl
  exact (item_integers m.stack.slots m.stack.pointer).bind ((Yields.modify hmove).bind (.pure _ _))

theorem key_checked (k : Int) :
    Yields (key k) (m.checked source) (m.keypad.isDown (.ofInt k)) (m.checked source) := by
  unfold key
  rw [land_0xf]
  exact item_toList m.keypad.pressed (.ofInt 4 k)

theorem setKey_checked (k : Int) (down : Bool) :
    Yields (setKey k down) (m.checked source) ()
      ({ m with keypad := m.keypad.set (.ofInt k) down }.checked source) := by
  unfold setKey
  rw [land_0xf]
  exact (replaced_toList m.keypad.pressed (.ofInt 4 k) down).bind (.modify rfl)

theorem firstKey?_checked (ks : List Nibble) :
    Yields (firstKey? (ks.map BitVec.toNat)) (m.checked source)
      ((ks.find? m.keypad.isDown).map fun k => (k.toNat : Int)) (m.checked source) := by
  induction ks with
  | nil => exact .pure _ _
  | cons k ks ih =>
    refine (item_toList m.keypad.pressed k).bind ?_
    show Yields (if m.keypad.isDown k then _ else _) _ _ _
    cases hk : m.keypad.isDown k with
    | true =>
      rw [List.find?_cons_of_pos hk]
      exact .pure _ _
    | false =>
      rw [List.find?_cons_of_neg (Bool.eq_false_iff.1 hk)]
      exact ih

theorem skip_checked : Yields skip (m.checked source) () ({ m with pc := m.pc + 2 }.checked source) := by
  have hpc : ((m.pc.toNat : Int) + 2).land 0xfff = (m.pc + 2).toNat := by
    rw [land_0xfff, BitVec.ofInt_add, ofInt_toNat, BitVec.setWidth_eq]
    rfl
  have hmove : { m.checked source with pc := ((m.pc.toNat : Int) + 2).land 0xfff } =
      { m with pc := m.pc + 2 }.checked source := by
    rw [hpc]
    rfl
  exact .modify hmove

/-! ### Drawing -/

theorem toggle_checked {x y : Nat} (hx : x < 64) (hy : y < 32) :
    Yields (toggle x y) (m.checked source) (m.display.cells.getLsbD (y * 64 + x))
      ({ m with display := m.display.flip (.ofCells 64 32 [y * 64 + x]) }.checked source) := by
  have hplace : y * 64 + x < cellCount 64 32 := by
    show y * 64 + x < 64 * 32
    omega
  have hn : y * 64 + x < m.display.integers.length := m.display.length_integers ▸ hplace
  have hitem := item_of_getElem? (s := m.checked source) (List.getElem?_eq_getElem hn)
  have hreplaced := replaced_of_lt (s := m.checked source) (m.display.integers[y * 64 + x].xor 0xffffffff) hn
  rw [Framebuffer.getElem_integers] at hitem hreplaced
  rw [Framebuffer.set_integers _ hplace] at hreplaced
  refine hitem.bind (.get (hreplaced.bind ((Yields.modify rfl).bind ?_)))
  rw [Framebuffer.decide_cellInteger]
  exact .pure _ _

end
end Checked
end ChipEight
