import Mathlib.Data.List.Nodup

/-!
# Maps in insertion order

A finite map that remembers the order in which its keys came in: `set` replaces the value of a
key in its place and appends a key that is new.  Two maps are equal when they have the same
entries in the same order.
-/

/-- Entries with pairwise distinct keys. -/
structure OrderedMap (α β : Type*) where
  entries : List (α × β)
  nodup : (entries.map Prod.fst).Nodup
  deriving DecidableEq

namespace OrderedMap

variable {α β : Type*}

@[ext] theorem ext {m m' : OrderedMap α β} (h : m.entries = m'.entries) : m = m' := by
  cases m; cases m'; cases h; rfl

/-- The map without entries. -/
def empty : OrderedMap α β := ⟨[], List.nodup_nil⟩

instance : EmptyCollection (OrderedMap α β) := ⟨empty⟩

@[simp] theorem entries_empty : (∅ : OrderedMap α β).entries = [] := rfl

/-- The keys, in order. -/
def keys (m : OrderedMap α β) : List α := m.entries.map Prod.fst

/-- An entry is the only one with its key. -/
theorem eq_of_mem {m : OrderedMap α β} {k : α} {v v' : β} (h : (k, v) ∈ m.entries)
    (h' : (k, v') ∈ m.entries) : v = v' := by
  have heq := List.inj_on_of_nodup_map m.nodup h h' rfl
  exact (Prod.mk.inj heq).2

variable [DecidableEq α]

/-- The value of a key. -/
def get (m : OrderedMap α β) (k : α) : Option β :=
  (m.entries.find? fun entry => entry.1 = k).map Prod.snd

/-- Entries with the value of `k` set to `v`. -/
def setEntries (k : α) (v : β) : List (α × β) → List (α × β)
  | [] => [(k, v)]
  | entry :: entries =>
    if entry.1 = k then (k, v) :: entries else entry :: setEntries k v entries

theorem setEntries_eq_append {k : α} {v : β} {entries : List (α × β)}
    (h : k ∉ entries.map Prod.fst) : setEntries k v entries = entries ++ [(k, v)] := by
  induction entries with
  | nil => rfl
  | cons entry entries ih =>
    rw [List.map_cons, List.mem_cons, not_or] at h
    rw [setEntries, if_neg (Ne.symm h.1), ih h.2, List.cons_append]

theorem keys_setEntries_of_mem {k : α} {v : β} {entries : List (α × β)}
    (h : k ∈ entries.map Prod.fst) :
    (setEntries k v entries).map Prod.fst = entries.map Prod.fst := by
  induction entries with
  | nil => cases h
  | cons entry entries ih =>
    rw [setEntries]
    split
    · rename_i heq
      rw [List.map_cons, List.map_cons, heq]
    · rename_i hne
      rw [List.map_cons, List.mem_cons] at h
      rw [List.map_cons, List.map_cons, ih (h.resolve_left (Ne.symm hne))]

theorem mem_setEntries {k : α} {v : β} {entries : List (α × β)} {entry : α × β}
    (hnodup : (entries.map Prod.fst).Nodup) :
    entry ∈ setEntries k v entries ↔ entry = (k, v) ∨ (entry ∈ entries ∧ entry.1 ≠ k) := by
  induction entries with
  | nil => simp [setEntries]
  | cons first entries ih =>
    rw [List.map_cons, List.nodup_cons] at hnodup
    rw [setEntries]
    split
    · rename_i heq
      -- the key stands here and nowhere behind
      have hrest : entry ∈ entries → entry.1 ≠ k := fun hmem hk =>
        hnodup.1 (heq ▸ hk ▸ List.mem_map_of_mem hmem)
      simp only [List.mem_cons]
      constructor
      · rintro (h | h)
        · exact Or.inl h
        · exact Or.inr ⟨Or.inr h, hrest h⟩
      · rintro (h | ⟨rfl | h, hk⟩)
        · exact Or.inl h
        · exact absurd heq hk
        · exact Or.inr h
    · rename_i hne
      rw [List.mem_cons, ih hnodup.2, List.mem_cons]
      constructor
      · rintro (rfl | h | ⟨h, hk⟩)
        · exact Or.inr ⟨Or.inl rfl, hne⟩
        · exact Or.inl h
        · exact Or.inr ⟨Or.inr h, hk⟩
      · rintro (h | ⟨rfl | h, hk⟩)
        · exact Or.inr (Or.inl h)
        · exact Or.inl rfl
        · exact Or.inr (Or.inr ⟨h, hk⟩)

/-- `m` with the value of `k` set to `v`. -/
def set (m : OrderedMap α β) (k : α) (v : β) : OrderedMap α β where
  entries := setEntries k v m.entries
  nodup := by
    by_cases h : k ∈ m.entries.map Prod.fst
    · rw [keys_setEntries_of_mem h]
      exact m.nodup
    · rw [setEntries_eq_append h, List.map_append]
      exact List.nodup_append.mpr ⟨m.nodup, List.nodup_singleton k, by
        intro a ha b hb
        obtain rfl := List.mem_singleton.mp hb
        rintro rfl
        exact h ha⟩

/-! ### Looking up -/

theorem get_eq_some_iff {m : OrderedMap α β} {k : α} {v : β} :
    m.get k = some v ↔ (k, v) ∈ m.entries := by
  constructor
  · intro h
    obtain ⟨⟨k', v'⟩, hfind, rfl⟩ := Option.map_eq_some_iff.mp h
    have hk : k' = k := by simpa using List.find?_some hfind
    exact hk ▸ List.mem_of_find?_eq_some hfind
  · intro h
    cases hfind : m.entries.find? fun entry => entry.1 = k with
    | none => exact absurd (List.find?_eq_none.mp hfind _ h) (by simp)
    | some entry =>
      have hk : entry.1 = k := by simpa using List.find?_some hfind
      have hmem : (k, entry.2) ∈ m.entries := hk ▸ List.mem_of_find?_eq_some hfind
      rw [get, hfind, m.eq_of_mem h hmem, Option.map_some]

theorem mem_set {m : OrderedMap α β} {k : α} {v : β} {entry : α × β} :
    entry ∈ (m.set k v).entries ↔ entry = (k, v) ∨ (entry ∈ m.entries ∧ entry.1 ≠ k) :=
  mem_setEntries m.nodup

@[simp] theorem get_set_self (m : OrderedMap α β) (k : α) (v : β) : (m.set k v).get k = some v :=
  get_eq_some_iff.mpr (mem_set.mpr (Or.inl rfl))

theorem get_set_of_ne {m : OrderedMap α β} {k k' : α} {v : β} (h : k' ≠ k) :
    (m.set k v).get k' = m.get k' := by
  ext v'
  rw [get_eq_some_iff, mem_set, get_eq_some_iff]
  constructor
  · rintro (heq | ⟨hmem, -⟩)
    · exact absurd (Prod.mk.inj heq).1 h
    · exact hmem
  · intro hmem
    exact Or.inr ⟨hmem, h⟩

/-- Setting a key to the value it has changes nothing. -/
theorem set_eq_self {m : OrderedMap α β} {k : α} {v : β} (h : m.get k = some v) :
    m.set k v = m := by
  have hentries : ∀ entries : List (α × β), (entries.map Prod.fst).Nodup →
      (k, v) ∈ entries → setEntries k v entries = entries := by
    intro entries hnodup hmem
    induction entries with
    | nil => cases hmem
    | cons entry entries ih =>
      rw [List.map_cons, List.nodup_cons] at hnodup
      rw [setEntries]
      rcases List.mem_cons.mp hmem with rfl | hrest
      · rw [if_pos rfl]
      · have hne : entry.1 ≠ k := fun heq =>
          hnodup.1 (heq ▸ List.mem_map_of_mem hrest)
        rw [if_neg hne, ih hnodup.2 hrest]
  exact ext (hentries m.entries m.nodup (get_eq_some_iff.mp h))

/-- A new key goes to the end. -/
theorem entries_set_of_not_mem {m : OrderedMap α β} {k : α} {v : β} (h : k ∉ m.keys) :
    (m.set k v).entries = m.entries ++ [(k, v)] :=
  setEntries_eq_append h

/-- Setting new keys one after the other appends them. -/
theorem entries_foldl_set {m : OrderedMap α β} {entries : List (α × β)}
    (h : (m.keys ++ entries.map Prod.fst).Nodup) :
    (entries.foldl (fun m entry => m.set entry.1 entry.2) m).entries = m.entries ++ entries := by
  induction entries generalizing m with
  | nil => simp
  | cons entry entries ih =>
    have hfresh : entry.1 ∉ m.keys := fun hmem =>
      List.disjoint_of_nodup_append h hmem (by simp)
    have hentries := entries_set_of_not_mem (v := entry.2) hfresh
    rw [List.foldl_cons, ih, hentries, List.append_assoc, List.singleton_append]
    rwa [keys, hentries, List.map_append, List.append_assoc]

/-- Setting the entries of a map into the empty map gives the map. -/
theorem foldl_set_entries (m : OrderedMap α β) :
    m.entries.foldl (fun m entry => m.set entry.1 entry.2) ∅ = m :=
  ext (entries_foldl_set (m := ∅) m.nodup)

theorem keys_set_of_mem {m : OrderedMap α β} {k : α} {v : β} (h : k ∈ m.keys) :
    (m.set k v).keys = m.keys :=
  keys_setEntries_of_mem h

theorem mem_keys_set {m : OrderedMap α β} {k k' : α} {v : β} :
    k' ∈ (m.set k v).keys ↔ k' = k ∨ k' ∈ m.keys := by
  by_cases h : k ∈ m.keys
  · rw [keys_set_of_mem h]
    exact ⟨Or.inr, fun h' => h'.elim (fun heq => heq ▸ h) id⟩
  · rw [keys, entries_set_of_not_mem h, List.map_append, List.mem_append, List.map_singleton,
      List.mem_singleton]
    exact or_comm

/-- After setting many entries, a key has the value it was set to last. -/
theorem get_foldl_set {γ : Type*} (key : γ → α) (value : γ → β) (items : List γ)
    (m : OrderedMap α β) (k : α) :
    (items.foldl (fun m item => m.set (key item) (value item)) m).get k
      = ((items.reverse.find? fun item => key item = k).map value).or (m.get k) := by
  induction items generalizing m with
  | nil => rfl
  | cons item items ih =>
    rw [List.foldl_cons, ih, List.reverse_cons, List.find?_append]
    cases items.reverse.find? fun item => key item = k with
    | some found => rfl
    | none =>
      by_cases hk : key item = k
      · subst hk
        simp
      · simp [hk, get_set_of_ne (Ne.symm hk)]

end OrderedMap
