import DocQuery.Json.Reader

/-!
# Trees of values

Induction over values with a hypothesis for every element of an array and every entry of an object,
and the recursions over elements and entries read as statements about members. A value that a text
means never repeats a key (`settled_of_parse`).
-/

namespace DocQuery

theorem mem_of_lookup {α β : Type} [BEq α] [LawfulBEq α] {entries : List (α × β)} {key : α}
    {value : β} (found : entries.lookup key = some value) : (key, value) ∈ entries := by
  obtain ⟨before, after, rfl, _⟩ := List.lookup_eq_some_iff.mp found
  simp

namespace Json

@[elab_as_elim, induction_eliminator]
theorem induct {motive : Json → Prop} (null : motive .null) (bool : ∀ value, motive (.bool value))
    (number : ∀ value, motive (.number value)) (string : ∀ value, motive (.string value))
    (array : ∀ items, (∀ v ∈ items, motive v) → motive (.array items))
    (object : ∀ entries, (∀ e ∈ entries, motive e.2) → motive (.object entries)) :
    ∀ v, motive v :=
  @Json.rec motive (fun items => ∀ v ∈ items, motive v) (fun entries => ∀ e ∈ entries, motive e.2)
    (fun e => motive e.2) null bool number string array object
    (by simp) (fun _ _ head tail => by simpa using ⟨head, tail⟩)
    (by simp) (fun _ _ head tail => by simpa using ⟨head, by simpa using tail⟩)
    (fun _ _ value => value)

theorem settledItems_iff {items : List Json} : SettledItems items ↔ ∀ v ∈ items, v.Settled := by
  induction items with
  | nil => simp [SettledItems]
  | cons v rest ih => simp [SettledItems, ih]

theorem settledEntries_iff {entries : List (String × Json)} :
    SettledEntries entries ↔ ∀ e ∈ entries, e.2.Settled := by
  induction entries with
  | nil => simp [SettledEntries]
  | cons e rest ih =>
    obtain ⟨key, v⟩ := e
    simp only [SettledEntries, ih, List.forall_mem_cons]

theorem settled_array {items : List Json} : (array items).Settled ↔ ∀ v ∈ items, v.Settled := by
  rw [Settled, settledItems_iff]

theorem settled_object {entries : List (String × Json)} :
    (object entries).Settled ↔ (entries.map Prod.fst).Nodup ∧ ∀ e ∈ entries, e.2.Settled := by
  rw [Settled, settledEntries_iff]

/-! ### Depth -/

theorem depthItems_le {items : List Json} {n : Nat} :
    depthItems items ≤ n ↔ ∀ v ∈ items, v.depth ≤ n := by
  induction items with
  | nil => simp [depthItems]
  | cons v rest ih => rw [depthItems, Nat.max_le, ih, List.forall_mem_cons]

theorem depthEntries_le {entries : List (String × Json)} {n : Nat} :
    depthEntries entries ≤ n ↔ ∀ e ∈ entries, e.2.depth ≤ n := by
  induction entries with
  | nil => simp [depthEntries]
  | cons e rest ih =>
    obtain ⟨key, v⟩ := e
    rw [depthEntries, Nat.max_le, ih, List.forall_mem_cons]

theorem depth_item {items : List Json} {v : Json} (member : v ∈ items) :
    v.depth + 1 ≤ (array items).depth :=
  Nat.succ_le_succ (depthItems_le.mp (Nat.le_refl _) v member)

/-! ### Fields -/

theorem mem_keys_iff {entries : List (String × Json)} {key : String} :
    key ∈ entries.map Prod.fst ↔ ∃ v, entries.lookup key = some v := by
  constructor
  · intro member
    obtain ⟨e, present, rfl⟩ := List.mem_map.mp member
    cases found : entries.lookup e.1 with
    | some v => exact ⟨v, rfl⟩
    | none => simpa using List.lookup_eq_none_iff.mp found e present
  · rintro ⟨v, found⟩
    exact List.mem_map_of_mem (mem_of_lookup found)

theorem lookup_of_mem {entries : List (String × Json)} {key : String} {v : Json}
    (unique : (entries.map Prod.fst).Nodup) (member : (key, v) ∈ entries) :
    entries.lookup key = some v := by
  obtain ⟨before, after, rfl⟩ := List.append_of_mem member
  refine List.lookup_eq_some_iff.mpr ⟨before, after, rfl, ?_⟩
  intro e earlier
  have apart : ∀ a ∈ before, a.1 ≠ key := by
    simp only [List.map_append, List.map_cons, List.nodup_append] at unique
    intro a present same
    exact unique.2.2 a.1 (List.mem_map_of_mem present) key (by simp) same
  simpa using (apart e earlier).symm

/-! ### The values of texts -/

theorem settleItems_eq (items : List Json) : settleItems items = items.map settle := by
  induction items with
  | nil => rfl
  | cons v rest ih => rw [settleItems, ih, List.map_cons]

theorem settleEntries_eq (entries : List (String × Json)) :
    settleEntries entries = entries.map fun e => (e.1, e.2.settle) := by
  induction entries with
  | nil => rfl
  | cons e rest ih => rw [settleEntries, ih, List.map_cons]

theorem keys_put (entries : List (String × Json)) (key : String) (v : Json) :
    (put entries key v).map Prod.fst =
      if key ∈ entries.map Prod.fst then entries.map Prod.fst else entries.map Prod.fst ++ [key] := by
  induction entries with
  | nil => rfl
  | cons e rest ih =>
    obtain ⟨k, w⟩ := e
    by_cases same : k = key
    · simp [put, same]
    · rw [put, if_neg same, List.map_cons, ih]
      split <;> simp_all [eq_comm]

theorem mem_put {entries : List (String × Json)} {key : String} {v : Json} {e : String × Json}
    (member : e ∈ put entries key v) : e = (key, v) ∨ e ∈ entries := by
  induction entries with
  | nil => exact .inl (List.mem_singleton.mp member)
  | cons first rest ih =>
    obtain ⟨k, w⟩ := first
    rw [put] at member
    split at member
    · rename_i same
      subst same
      exact (List.mem_cons.mp member).imp id (List.mem_cons_of_mem _)
    · rcases List.mem_cons.mp member with rfl | later
      · exact .inr List.mem_cons_self
      · exact (ih later).imp id (List.mem_cons_of_mem _)

theorem settled_put {entries : List (String × Json)} {v : Json} (settled : (object entries).Settled)
    (inner : v.Settled) (key : String) : (object (put entries key v)).Settled := by
  obtain ⟨unique, each⟩ := settled_object.mp settled
  refine settled_object.mpr ⟨?_, ?_⟩
  · rw [keys_put]
    split
    · exact unique
    · rename_i fresh
      refine List.nodup_append.mpr ⟨unique, by simp, ?_⟩
      rintro k old last present rfl
      exact fresh (List.mem_singleton.mp present ▸ old)
  · intro e member
    rcases mem_put member with rfl | old
    · exact inner
    · exact each e old

theorem settled_foldl_put {entries : List (String × Json)} (each : ∀ e ∈ entries, e.2.Settled)
    {before : List (String × Json)} (settled : (object before).Settled) :
    (object (entries.foldl (fun es e => put es e.1 e.2) before)).Settled := by
  induction entries generalizing before with
  | nil => exact settled
  | cons e rest ih =>
    obtain ⟨first, later⟩ := List.forall_mem_cons.mp each
    exact ih later (settled_put settled first e.1)

theorem settled_settle (v : Json) : v.settle.Settled := by
  induction v with
  | array items ih =>
    rw [settle, settleItems_eq, settled_array]
    exact List.forall_mem_map.mpr ih
  | object entries ih =>
    rw [settle, settleEntries_eq]
    refine settled_foldl_put (List.forall_mem_map.mpr ih) (settled_object.mpr ?_)
    simp
  | _ => trivial

theorem put_of_fresh {entries : List (String × Json)} {key : String}
    (fresh : key ∉ entries.map Prod.fst) (v : Json) :
    put entries key v = entries ++ [(key, v)] := by
  induction entries with
  | nil => rfl
  | cons e rest ih =>
    obtain ⟨k, w⟩ := e
    rw [List.map_cons, List.mem_cons, not_or] at fresh
    rw [put, if_neg (Ne.symm fresh.1), ih fresh.2, List.cons_append]

/-- Entries with keys of their own are kept as they stand. -/
theorem foldl_put_of_nodup (entries before : List (String × Json))
    (unique : ((before ++ entries).map Prod.fst).Nodup) :
    entries.foldl (fun es e => put es e.1 e.2) before = before ++ entries := by
  induction entries generalizing before with
  | nil => rw [List.foldl_nil, List.append_nil]
  | cons e rest ih =>
    have fresh : e.1 ∉ before.map Prod.fst := by
      intro old
      rw [List.map_append, List.nodup_append] at unique
      exact unique.2.2 e.1 old e.1 List.mem_cons_self rfl
    rw [List.append_cons] at unique
    rw [List.foldl_cons, put_of_fresh fresh, ih _ unique, ← List.append_cons]

/-- A value that repeats no key means itself. -/
theorem settle_of_settled {v : Json} (settled : v.Settled) : v.settle = v := by
  induction v with
  | array items ih =>
    rw [settled_array] at settled
    rw [settle, settleItems_eq, List.map_congr_left fun v member => ih v member (settled v member),
      List.map_id']
  | object entries ih =>
    obtain ⟨unique, each⟩ := settled_object.mp settled
    have same : settleEntries entries = entries := by
      rw [settleEntries_eq,
        List.map_congr_left (g := id) fun e member => by rw [ih e member (each e member)]; rfl,
        List.map_id]
    rw [settle, same, foldl_put_of_nodup entries [] unique, List.nil_append]
  | _ => rfl

theorem settleItems_of_settled {items : List Json} (each : ∀ v ∈ items, v.Settled) :
    settleItems items = items := by
  have same := settle_of_settled (settled_array.mpr each)
  rw [settle] at same
  exact array.inj same

theorem settled_of_parse {text : String} {v : Json} (parsed : parse text = .ok v) : v.Settled := by
  unfold parse at parsed
  cases found : read text with
  | error cause => rw [found] at parsed; cases parsed
  | ok tree =>
    rw [found] at parsed
    cases parsed
    exact settled_settle tree

end Json

end DocQuery
