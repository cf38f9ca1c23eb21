/-!
# Tables indexed by a machine word

A `Table w α` holds one value for each of the words of width `w`, so reading and writing
are total and no index is out of range. Reading a written table is `getElem_set`, and two tables
with the same entries are equal (`Table.ext`).
-/

namespace ChipEight

/-- The number of words of width `w`. -/
abbrev wordCount (w : Nat) : Nat := Nat.pow 2 w

/-- One value of `α` for every `w`-bit index. -/
structure Table (w : Nat) (α : Type) where
  slots : Vector α (wordCount w)
deriving DecidableEq

namespace Table
variable {w : Nat} {α : Type}

instance : GetElem (Table w α) (BitVec w) α fun _ _ => True where
  getElem t i _ := t.slots.get i.toFin

def replicate (w : Nat) (a : α) : Table w α := ⟨Vector.replicate (wordCount w) a⟩

def ofFn (f : BitVec w → α) : Table w α := ⟨Vector.ofFn fun i => f (BitVec.ofFin i)⟩

def set (t : Table w α) (i : BitVec w) (a : α) : Table w α := ⟨t.slots.set i.toNat a i.isLt⟩

/-- The entries in index order. -/
def toList (t : Table w α) : List α := t.slots.toList

theorem getElem_eq_slots (t : Table w α) (i : BitVec w) (h : i.toNat < wordCount w) :
    t[i] = t.slots[i.toNat] := rfl

@[ext] theorem ext {t u : Table w α} (h : ∀ i : BitVec w, t[i] = u[i]) : t = u := by
  obtain ⟨xs⟩ := t
  obtain ⟨ys⟩ := u
  congr 1
  refine Vector.ext fun i hi => ?_
  have hi' : (BitVec.ofNat w i).toNat = i := Nat.mod_eq_of_lt hi
  have := h (BitVec.ofNat w i)
  rw [getElem_eq_slots _ _ (BitVec.isLt _), getElem_eq_slots _ _ (BitVec.isLt _)] at this
  simpa only [hi'] using this

@[simp] theorem getElem_replicate (a : α) (i : BitVec w) : (replicate w a)[i] = a := by
  simp [getElem_eq_slots _ _ i.isLt, replicate]

@[simp] theorem getElem_ofFn (f : BitVec w → α) (i : BitVec w) : (ofFn f)[i] = f i := by
  simp [getElem_eq_slots _ _ i.isLt, ofFn]

theorem getElem_set (t : Table w α) (i j : BitVec w) (a : α) :
    (t.set i a)[j] = if i = j then a else t[j] := by
  simp [getElem_eq_slots _ _ j.isLt, set, Vector.getElem_set, BitVec.toNat_inj]

@[simp] theorem getElem_set_self (t : Table w α) (i : BitVec w) (a : α) : (t.set i a)[i] = a := by
  simp [getElem_set]

theorem getElem_set_ne (t : Table w α) {i j : BitVec w} (a : α) (h : i ≠ j) :
    (t.set i a)[j] = t[j] := by
  simp [getElem_set, h]

@[simp] theorem set_getElem_self (t : Table w α) (i : BitVec w) : t.set i t[i] = t := by
  ext j
  rw [getElem_set]
  split
  · subst i; rfl
  · rfl

@[simp] theorem length_toList (t : Table w α) : t.toList.length = wordCount w := by
  simp [toList]

theorem getElem?_toList (t : Table w α) (i : BitVec w) : t.toList[i.toNat]? = some t[i] := by
  simp [toList, getElem_eq_slots _ _ i.isLt]

theorem toList_injective : Function.Injective (toList (w := w) (α := α)) := fun t u h => by
  ext i
  exact Option.some.inj ((t.getElem?_toList i).symm.trans ((congrArg (·[i.toNat]?) h).trans (u.getElem?_toList i)))

end Table
end ChipEight
