/-!
# Finite tables

A table binds finitely many keys to one value each. It is a list of bindings with pairwise
different keys, so that each operation is one line and each law one short induction.

* `Table.find?` — the view: a table is known by what it answers to each key.
* `Table.insert`, `Table.erase`, `Table.adjust` — each with its equation through the view.
* `Table.size` — the number of bindings, with its effect under insertion and removal.
-/

namespace FlowGraph

/-- Bindings of keys to values, no key twice. -/
structure Table (κ ν : Type) where
  bindings : List (κ × ν)
  keysNodup : (bindings.map Prod.fst).Nodup

namespace Table

variable {κ ν : Type}

/-- The table without bindings. -/
def empty : Table κ ν := ⟨[], List.nodup_nil⟩

instance : Inhabited (Table κ ν) := ⟨empty⟩

/-- The bound keys. -/
def keys (t : Table κ ν) : List κ := t.bindings.map Prod.fst

/-- The bound values, in the order of `keys`. -/
def values (t : Table κ ν) : List ν := t.bindings.map Prod.snd

/-- The number of bindings. -/
def size (t : Table κ ν) : Nat := t.bindings.length

variable [DecidableEq κ]

/-- The first value bound to a key in a list of bindings. -/
def lookup (k : κ) : List (κ × ν) → Option ν
  | [] => none
  | (a, v) :: bs => if k = a then some v else lookup k bs

/-- The value bound to a key. -/
def find? (t : Table κ ν) (k : κ) : Option ν := lookup k t.bindings

/-- Whether a key is bound. -/
def contains (t : Table κ ν) (k : κ) : Bool := (t.find? k).isSome

/-- The bindings of every other key. -/
def erase (t : Table κ ν) (k : κ) : Table κ ν where
  bindings := t.bindings.filter fun b => b.1 ≠ k
  keysNodup := t.keysNodup.sublist (List.filter_sublist.map _)

/-- Bind a key, in place of its former binding if there was one. -/
def insert (t : Table κ ν) (k : κ) (v : ν) : Table κ ν where
  bindings := (k, v) :: (t.erase k).bindings
  keysNodup := by
    refine List.nodup_cons.2 ⟨?_, (t.erase k).keysNodup⟩
    simp [erase]

/-- Change the value of a key, if it has one. -/
def adjust (t : Table κ ν) (k : κ) (f : ν → ν) : Table κ ν where
  bindings := t.bindings.map fun b => if b.1 = k then (b.1, f b.2) else b
  keysNodup := by
    have h : (t.bindings.map fun b => if b.1 = k then (b.1, f b.2) else b).map Prod.fst
        = t.bindings.map Prod.fst := by
      rw [List.map_map]
      refine List.map_congr_left fun b _ => ?_
      by_cases hb : b.1 = k <;> simp [hb]
    rw [h]
    exact t.keysNodup

/-! ### Equations through the view -/

/-- Dropping one key from a list of bindings hides that key and nothing else. -/
theorem lookup_filter_ne (k l : κ) (bs : List (κ × ν)) :
    lookup l (bs.filter fun b => b.1 ≠ k) = if l = k then none else lookup l bs := by
  induction bs with
  | nil => simp [lookup]
  | cons b bs ih =>
    obtain ⟨a, v⟩ := b
    by_cases ha : a = k
    · subst ha
      by_cases hl : l = a <;> simp_all [lookup]
    · by_cases hl : l = k
      · subst hl
        simp_all [lookup, Ne.symm]
      · simp_all [lookup]

theorem find?_erase (t : Table κ ν) (k l : κ) :
    (t.erase k).find? l = if l = k then none else t.find? l :=
  lookup_filter_ne k l t.bindings

theorem find?_insert (t : Table κ ν) (k l : κ) (v : ν) :
    (t.insert k v).find? l = if l = k then some v else t.find? l := by
  have h := find?_erase t k l
  by_cases hl : l = k
  · simp [find?, insert, lookup, hl]
  · simp only [hl, if_false] at h ⊢
    simpa [find?, insert, lookup, hl] using h

@[simp] theorem find?_insert_self (t : Table κ ν) (k : κ) (v : ν) :
    (t.insert k v).find? k = some v := by
  simp [find?_insert]

/-- A binding that is found after an insertion is the new one or one of another key. -/
theorem find?_insert_eq_some {t : Table κ ν} {k l : κ} {v w : ν}
    (h : (t.insert k v).find? l = some w) : (l = k ∧ w = v) ∨ (l ≠ k ∧ t.find? l = some w) := by
  rw [find?_insert] at h
  split at h
  · next hl => exact .inl ⟨hl, (Option.some.inj h).symm⟩
  · next hl => exact .inr ⟨hl, h⟩

theorem find?_adjust (t : Table κ ν) (k l : κ) (f : ν → ν) :
    (t.adjust k f).find? l = if l = k then (t.find? l).map f else t.find? l := by
  obtain ⟨bs, hbs⟩ := t
  simp only [find?, adjust]
  clear hbs
  induction bs with
  | nil => simp [lookup]
  | cons b bs ih =>
    obtain ⟨a, v⟩ := b
    by_cases ha : a = k <;> by_cases hal : l = a
    · subst ha hal
      simp [lookup]
    · simp_all [lookup]
    · subst hal
      simp [lookup, ha]
    · simp_all [lookup]

/-- A key is bound exactly when it is listed. -/
theorem mem_keys_iff (t : Table κ ν) (k : κ) : k ∈ t.keys ↔ (t.find? k).isSome := by
  obtain ⟨bs, hbs⟩ := t
  simp only [keys, find?]
  clear hbs
  induction bs with
  | nil => simp [lookup]
  | cons b bs ih =>
    obtain ⟨a, v⟩ := b
    by_cases h : k = a
    · simp [lookup, h]
    · simpa [lookup, h] using ih

/-- In a list of bindings without repeated keys, the first binding of a key is the only one. -/
theorem lookup_of_mem {k : κ} {v : ν} {bs : List (κ × ν)} (h : (bs.map Prod.fst).Nodup)
    (hm : (k, v) ∈ bs) : lookup k bs = some v := by
  induction bs with
  | nil => cases hm
  | cons b bs ih =>
      rw [List.map_cons, List.nodup_cons] at h
      rcases List.mem_cons.1 hm with rfl | hm
      · exact if_pos rfl
      · have hne : k ≠ b.1 := by
          rintro rfl
          exact h.1 (List.mem_map.2 ⟨_, hm, rfl⟩)
        rw [lookup, if_neg hne]
        exact ih h.2 hm

theorem mem_of_lookup {k : κ} {v : ν} {bs : List (κ × ν)} (h : lookup k bs = some v) :
    (k, v) ∈ bs := by
  induction bs with
  | nil => cases h
  | cons b bs ih =>
    rw [lookup] at h
    split at h
    · next hk =>
      rw [hk, Option.some.inj h |>.symm]
      exact List.mem_cons_self
    · exact List.mem_cons_of_mem _ (ih h)

theorem lookup_map {μ : Type} (f : ν → μ) (k : κ) (bs : List (κ × ν)) :
    lookup k (bs.map fun b => (b.1, f b.2)) = (lookup k bs).map f := by
  induction bs with
  | nil => rfl
  | cons b bs ih =>
    simp only [List.map_cons, lookup, ih]
    split <;> rfl

/-- A binding is listed exactly when it is found. -/
theorem mem_bindings_iff (t : Table κ ν) (k : κ) (v : ν) :
    (k, v) ∈ t.bindings ↔ t.find? k = some v :=
  ⟨lookup_of_mem t.keysNodup, mem_of_lookup⟩

/-! ### Size -/

/-- In a list of bindings without repeated keys, dropping a bound key shortens the list by one. -/
theorem length_filter_ne (k : κ) (bs : List (κ × ν)) (h : (bs.map Prod.fst).Nodup) :
    (bs.filter fun b => b.1 ≠ k).length
      = if (lookup k bs).isSome then bs.length - 1 else bs.length := by
  induction bs with
  | nil => simp [lookup]
  | cons b bs ih =>
    obtain ⟨a, v⟩ := b
    have hn := List.nodup_cons.1 h
    by_cases ha : a = k
    · have hbs : (bs.filter fun b => b.1 ≠ k) = bs := by
        refine List.filter_eq_self.2 fun c hc => ?_
        have : c.1 ≠ k := fun e =>
          hn.1 (by simpa [ha, e] using List.mem_map_of_mem (f := Prod.fst) hc)
        simpa using this
      rw [List.filter_cons_of_neg (by simpa using ha), hbs]
      simp [lookup, ha]
    · have hne : k ≠ a := fun e => ha e.symm
      rw [List.filter_cons_of_pos (by simpa using ha), List.length_cons, ih hn.2]
      simp only [lookup, if_neg hne, List.length_cons]
      split
      · have : bs ≠ [] := by
          rintro rfl
          simp_all [lookup]
        have := List.length_pos_iff.2 this
        omega
      · rfl

theorem size_erase (t : Table κ ν) (k : κ) :
    (t.erase k).size = if t.contains k then t.size - 1 else t.size :=
  length_filter_ne k t.bindings t.keysNodup

/-- A table with a bound key is not empty. -/
theorem size_pos_of_contains (t : Table κ ν) (k : κ) (h : t.contains k) : 0 < t.size := by
  obtain ⟨bs, hbs⟩ := t
  cases bs with
  | nil => simp [contains, find?, lookup] at h
  | cons b bs => simp [size]

theorem size_insert (t : Table κ ν) (k : κ) (v : ν) :
    (t.insert k v).size = if t.contains k then t.size else t.size + 1 := by
  have h := size_erase t k
  have hs : (t.insert k v).size = (t.erase k).size + 1 := by simp [size, insert]
  rw [hs, h]
  split
  · next hc =>
    have := size_pos_of_contains t k hc
    omega
  · rfl

example : ((empty.insert 1 'a').insert 2 'b').find? 1 = some 'a' := by decide

end Table

end FlowGraph
