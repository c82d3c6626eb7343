import RootedBuild.Json.Value

/-!
Members of a record in the order of their keys. Putting a value keeps the order, so a record made by
`put` and `overlay` has one value for each key, and laying it over another one decides exactly the
keys it has.
-/
namespace RootedBuild.Json.Members

/-- Keys grow from each member to all later ones, so none stands twice. -/
def Sorted (ms : Members) : Prop := ms.Pairwise fun m n => m.1 < n.1

theorem sorted_nil : Sorted [] := List.Pairwise.nil

theorem lt_of_mem_put {ms : Members} {key k : String} {v : Value} (first : k < key)
    (all : ∀ m ∈ ms, k < m.1) : ∀ m ∈ ms.put key v, k < m.1 := by
  induction ms with
  | nil =>
      intro m member
      rw [put, List.mem_singleton] at member
      rw [member]
      exact first
  | cons m rest ih =>
      obtain ⟨k', v'⟩ := m
      have later := ih fun m member => all m (List.mem_cons_of_mem _ member)
      intro m member
      rw [put] at member
      split at member
      · rcases List.mem_cons.mp member with rfl | inside
        · exact first
        · exact all m (List.mem_cons_of_mem _ inside)
      · split at member
        · rcases List.mem_cons.mp member with rfl | inside
          · exact first
          · exact all m inside
        · rcases List.mem_cons.mp member with rfl | inside
          · exact all _ (List.mem_cons_self ..)
          · exact later m inside

theorem Sorted.put {ms : Members} (h : ms.Sorted) (key : String) (v : Value) :
    (ms.put key v).Sorted := by
  induction ms with
  | nil => exact List.pairwise_singleton _ _
  | cons m rest ih =>
      obtain ⟨k, v'⟩ := m
      obtain ⟨first, later⟩ := List.pairwise_cons.mp h
      rw [Members.put]
      split
      · rename_i same
        exact List.pairwise_cons.mpr ⟨same ▸ first, later⟩
      · split
        · rename_i below
          refine List.pairwise_cons.mpr ⟨?_, h⟩
          intro m member
          rcases List.mem_cons.mp member with rfl | inside
          · exact below
          · exact String.lt_trans below (first m inside)
        · rename_i other notBelow
          have above : k < key := by
            have le := String.not_lt.mp notBelow
            exact String.not_le.mp fun ge => other (String.le_antisymm le ge)
          exact List.pairwise_cons.mpr ⟨lt_of_mem_put above first, ih later⟩

theorem Sorted.foldl {step : Members → β → Members}
    (keeps : ∀ ms b, Sorted ms → (step ms b).Sorted) {ms : Members} (h : ms.Sorted)
    (bs : List β) : (bs.foldl step ms).Sorted := by
  induction bs generalizing ms with
  | nil => exact h
  | cons b bs ih => exact ih (keeps ms b h)

theorem Sorted.overlay {ms : Members} (h : ms.Sorted) (upper : Members) :
    (ms.overlay upper).Sorted :=
  h.foldl (fun _ m h => h.put m.1 m.2) upper

theorem Sorted.erase {ms : Members} (h : ms.Sorted) (key : String) : (ms.erase key).Sorted :=
  List.Pairwise.filter _ h

theorem sorted_ofPairs (pairs : List (String × Value)) : Sorted (ofPairs pairs) :=
  sorted_nil.overlay pairs

theorem get?_eq_none_of_lt {ms : Members} {key : String} (all : ∀ m ∈ ms, key < m.1) :
    ms.get? key = none := by
  induction ms with
  | nil => rfl
  | cons m rest ih =>
      obtain ⟨k, v⟩ := m
      have other : k ≠ key := by
        rintro rfl
        exact String.lt_irrefl _ (all _ (List.mem_cons_self ..))
      rw [get?, if_neg other]
      exact ih fun m member => all m (List.mem_cons_of_mem _ member)

theorem get?_overlay (ms : Members) {upper : Members} (h : upper.Sorted) (key : String) :
    (ms.overlay upper).get? key = (upper.get? key).or (ms.get? key) := by
  induction upper generalizing ms with
  | nil => rfl
  | cons m upper ih =>
      obtain ⟨k, v⟩ := m
      obtain ⟨first, later⟩ := List.pairwise_cons.mp h
      have rest := ih (ms.put k v) later
      rw [get?_put] at rest
      change ((ms.put k v).overlay upper).get? key = _
      rw [rest, get?]
      split
      · rename_i same
        rw [get?_eq_none_of_lt (same ▸ first)]
        rfl
      · rfl

/-- Of different keys, each is changed once. -/
theorem get?_foldl {step : Members → String → Members} (change : Option Value → Option Value)
    (each : ∀ ms k key, (step ms k).get? key =
      if k = key then change (ms.get? key) else ms.get? key)
    {keys : List String} (distinct : keys.Nodup) (ms : Members) (key : String) :
    (keys.foldl step ms).get? key =
      if key ∈ keys then change (ms.get? key) else ms.get? key := by
  induction keys generalizing ms with
  | nil => rfl
  | cons k keys ih =>
      obtain ⟨fresh, later⟩ := List.nodup_cons.mp distinct
      rw [List.foldl_cons, ih later, each]
      by_cases same : k = key
      · subst same
        simp [fresh]
      · simp [same, Ne.symm same]

theorem put_of_gt {ms : Members} {key : String} (above : ∀ m ∈ ms, m.1 < key) (v : Value) :
    ms.put key v = ms ++ [(key, v)] := by
  induction ms with
  | nil => rfl
  | cons m rest ih =>
      obtain ⟨k, w⟩ := m
      have first : k < key := above (k, w) (List.mem_cons_self ..)
      have other : k ≠ key := fun same => String.lt_irrefl key (same ▸ first)
      have notBelow : ¬key < k := fun below => String.lt_irrefl k (String.lt_trans first below)
      rw [put, if_neg other, if_neg notBelow, List.cons_append,
        ih fun m member => above m (List.mem_cons_of_mem _ member)]

theorem Sorted.mem_iff {ms : Members} (h : ms.Sorted) {key : String} {v : Value} :
    (key, v) ∈ ms ↔ ms.get? key = some v := by
  induction ms with
  | nil => simp [get?]
  | cons m rest ih =>
      obtain ⟨k, w⟩ := m
      obtain ⟨first, later⟩ := List.pairwise_cons.mp h
      rw [List.mem_cons, ih later, get?]
      by_cases same : k = key
      · subst same
        simp [get?_eq_none_of_lt first, eq_comm]
      · simp [same, Ne.symm same]

/-- Members in their order are what they say of each key. -/
theorem Sorted.ext {ms ms' : Members} (h : ms.Sorted) (h' : ms'.Sorted)
    (same : ∀ key, ms.get? key = ms'.get? key) : ms = ms' := by
  have distinct {ms : Members} (h : ms.Sorted) : ms.Nodup := by
    refine List.Pairwise.imp ?_ h
    rintro m _ below rfl
    exact String.lt_irrefl _ below
  have perm : ms.Perm ms' := by
    rw [List.perm_ext_iff_of_nodup (distinct h) (distinct h')]
    rintro ⟨key, v⟩
    rw [h.mem_iff, h'.mem_iff, same]
  refine perm.eq_of_pairwise ?_ h h'
  intro m m' _ _ below above
  exact absurd (String.lt_trans below above) (String.lt_irrefl _)

/-- Members in their order are put down as they are. -/
theorem Sorted.ofPairs {ms : Members} (h : ms.Sorted) : Members.ofPairs ms = ms := by
  have laid (front back : Members) (h : Sorted (front ++ back)) :
      front.overlay back = front ++ back := by
    induction back generalizing front with
    | nil => exact (List.append_nil front).symm
    | cons m back ih =>
        have above : ∀ k ∈ front, k.1 < m.1 :=
          fun k member => (List.pairwise_append.mp h).2.2 k member m (List.mem_cons_self ..)
        rw [List.append_cons] at h ⊢
        rw [← ih (front ++ [m]) h, ← put_of_gt above m.2]
        rfl
  exact laid [] ms h

end RootedBuild.Json.Members
