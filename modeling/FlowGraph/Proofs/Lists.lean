/-!
# Facts about lists

What the proofs need of lists beyond what the library has. None of it is about graphs.

* `filterMap_concat`, `filterMap_singleton`, `filterMap_range_getElem?` — what is picked from a
  list.
* `map_some_filterMap`, `countP_map_some` — lists of which everything is picked.
* `flatMap_ite`, `filter_mem_of_count_flatMap` — lists put together from others.
* `length_filter_le_one` — a property that no two members share.
* `exists_of_not_mem_front`, `exists_of_not_mem_back` — the place of a member in two lists.
* `eraseDups_concat_of_mem`, `eraseDups_concat_of_not_mem` — distinct members, one at a time.
* `foldl_eraseP_filter` — members erased one by one, by their keys.
-/

namespace FlowGraph

/-! ### What is picked from a list -/

/-- What is picked from a list with one more member. -/
theorem filterMap_concat {α β : Type} (f : α → Option β) (l : List α) (a : α) :
    (l ++ [a]).filterMap f = l.filterMap f ++ (f a).toList := by
  rw [List.filterMap_append, List.filterMap_cons]
  cases f a <;> rfl

/-- A list without repetition names something once at most. -/
theorem filterMap_singleton {α β : Type} [DecidableEq α] (a : α) (y : β) {l : List α}
    (hl : l.Nodup) :
    l.filterMap (fun b => if b = a then some y else none) = if a ∈ l then [y] else [] := by
  induction l with
  | nil => rfl
  | cons b l ih =>
      rw [List.nodup_cons] at hl
      rw [List.filterMap_cons, ih hl.2]
      by_cases hb : b = a
      · subst hb
        simp [hl.1]
      · simp [hb, Ne.symm hb]

/-- To look at the first places of a list is to take its front. -/
theorem filterMap_range_getElem? {α : Type} (l : List α) (n : Nat) :
    (List.range n).filterMap (fun k => l[k]?) = l.take n := by
  induction n with
  | zero => rfl
  | succ n ih =>
      rw [List.range_succ, List.filterMap_append, ih, List.take_add_one]
      cases h : l[n]? <;> simp [h]

/-- If something is picked for every member, nothing is lost. -/
theorem map_some_filterMap {α β : Type} {f e : α → Option β} {l : List α}
    (h : ∀ x ∈ l, f x = e x ∧ (e x).isSome = true) : (l.filterMap f).map some = l.map e := by
  induction l with
  | nil => rfl
  | cons x l ih =>
      obtain ⟨hx, hsome⟩ := h x (by simp)
      obtain ⟨y, hy⟩ := Option.isSome_iff_exists.1 hsome
      rw [List.filterMap_cons_some (hx.trans hy), List.map_cons, List.map_cons, hy,
        ih fun z hz => h z (by simp [hz])]

theorem countP_map_some {α : Type} (f : α → Bool) {l : List α} {m : List (Option α)}
    (h : l.map some = m) : l.countP f = m.countP fun x => x.any f := by
  rw [← h, List.countP_map]
  rfl

/-- A property that no two members share is that of one member at most. -/
theorem length_filter_le_one {α : Type} {p : α → Bool} {l : List α}
    (h : l.Pairwise fun x y => ¬ (p x = true ∧ p y = true)) : (l.filter p).length ≤ 1 := by
  induction l with
  | nil => exact Nat.zero_le 1
  | cons x l ih =>
      rw [List.pairwise_cons] at h
      by_cases hx : p x = true
      · have hrest : l.filter p = [] :=
          List.filter_eq_nil_iff.2 fun y hy hpy => h.1 y hy ⟨hx, hpy⟩
        rw [List.filter_cons_of_pos hx, hrest]
        exact Nat.le_refl 1
      · rw [List.filter_cons_of_neg hx]
        exact ih h.2

/-! ### Lists put together from others -/

/-- What is empty for some members of a list comes from the others. -/
theorem flatMap_ite {α β : Type} (p : α → Prop) [DecidablePred p] (f : α → List β) (l : List α) :
    (l.flatMap fun x => if p x then f x else []) = (l.filter p).flatMap f := by
  induction l with
  | nil => rfl
  | cons x l ih =>
      by_cases hx : p x
      · simp [hx, ih]
      · simp [hx, ih]

/-- What occurs once in all lists together occurs in one of them. -/
theorem filter_mem_of_count_flatMap {α β : Type} [DecidableEq β] (f : α → List β) (x : β)
    {l : List α} (h : (l.flatMap f).count x = 1) : ∃ t, l.filter (fun t => x ∈ f t) = [t] := by
  induction l with
  | nil => cases h
  | cons t l ih =>
      rw [List.flatMap_cons, List.count_append] at h
      by_cases ht : x ∈ f t
      · have hpos := List.count_pos_iff.2 ht
        have hrest : (l.flatMap f).count x = 0 := by omega
        have hnone : l.filter (fun t => x ∈ f t) = [] := by
          refine List.filter_eq_nil_iff.2 fun u hu => ?_
          have hnot := List.count_eq_zero.1 hrest
          simpa using fun hx => hnot (List.mem_flatMap.2 ⟨u, hu, hx⟩)
        refine ⟨t, ?_⟩
        rw [List.filter_cons_of_pos (by simpa using ht), hnone]
      · have hzero := List.count_eq_zero.2 ht
        rw [List.filter_cons_of_neg (by simpa using ht)]
        exact ih (by omega)

/-- A member that is not in the front of a list lies behind it. -/
theorem exists_of_not_mem_front {α : Type} {front back pre post : List α} {x : α}
    (h : front ++ back = pre ++ x :: post) (hx : x ∉ front) :
    ∃ mid, back = mid ++ x :: post := by
  rcases List.append_eq_append_iff.1 h with ⟨mid, -, hback⟩ | ⟨mid, hfront, hrest⟩
  · exact ⟨mid, hback⟩
  · cases mid with
    | nil => exact ⟨[], hrest.symm⟩
    | cons y mid =>
        rw [List.cons_append, List.cons.injEq] at hrest
        exact absurd (by rw [hfront, hrest.1]; simp) hx

/-- A member that is not in the back of a list lies before it. -/
theorem exists_of_not_mem_back {α : Type} {front back pre post : List α} {x : α}
    (h : front ++ back = pre ++ x :: post) (hx : x ∉ back) :
    ∃ mid, front = pre ++ x :: mid := by
  rcases List.append_eq_append_iff.1 h with ⟨mid, -, hback⟩ | ⟨mid, hfront, hrest⟩
  · exact absurd (by rw [hback]; simp) hx
  · cases mid with
    | nil => exact absurd (by rw [← List.nil_append back, ← hrest]; simp) hx
    | cons y mid =>
        rw [List.cons_append, List.cons.injEq] at hrest
        exact ⟨mid, by rw [hfront, hrest.1]⟩

/-! ### Distinct members -/

theorem eraseDups_concat_of_mem {α : Type} [DecidableEq α] {l : List α} {a : α} (h : a ∈ l) :
    (l ++ [a]).eraseDups = l.eraseDups := by
  have hnone : [a].removeAll l = [] := by simp [List.removeAll, h]
  rw [List.eraseDups_append, hnone, List.eraseDups_nil, List.append_nil]

theorem eraseDups_concat_of_not_mem {α : Type} [DecidableEq α] {l : List α} {a : α} (h : a ∉ l) :
    (l ++ [a]).eraseDups = l.eraseDups ++ [a] := by
  have hone : [a].removeAll l = [a] := by simp [List.removeAll, h]
  rw [List.eraseDups_append, hone]
  simp [List.eraseDups_cons]

/-! ### Members erased by their keys -/

section

variable {α κ : Type} [DecidableEq κ] (key : α → κ)

/-- Members of other keys are erased behind one that stays. -/
theorem foldl_eraseP_cons {a : α} {ks : List κ} (ha : key a ∉ ks) (l : List α) :
    ks.foldl (fun l k => l.eraseP (key · = k)) (a :: l)
      = a :: ks.foldl (fun l k => l.eraseP (key · = k)) l := by
  induction ks generalizing l with
  | nil => rfl
  | cons k ks ih =>
      rw [List.mem_cons, not_or] at ha
      rw [List.foldl_cons, List.foldl_cons, List.eraseP_cons_of_neg (by simpa using ha.1)]
      exact ih ha.2 _

/-- Where keys are distinct, to erase some members by their keys is to keep the others. -/
theorem foldl_eraseP_filter {l : List α} (h : (l.map key).Nodup) (f : α → Bool) :
    ((l.filter f).map key).foldl (fun l k => l.eraseP (key · = k)) l = l.filter fun a => !f a := by
  induction l with
  | nil => rfl
  | cons a l ih =>
      rw [List.map_cons, List.nodup_cons] at h
      have ha : key a ∉ (l.filter f).map key := fun hmem =>
        h.1 ((List.filter_sublist.map key).subset hmem)
      cases hf : f a with
      | true =>
          rw [List.filter_cons_of_pos hf, List.map_cons, List.foldl_cons,
            List.eraseP_cons_of_pos (by simp), List.filter_cons_of_neg (by simp [hf])]
          exact ih h.2
      | false =>
          rw [List.filter_cons_of_neg (by simp [hf]), foldl_eraseP_cons key ha,
            List.filter_cons_of_pos (by simp [hf]), ih h.2]

end

end FlowGraph
