import Mathlib.Data.List.Nodup

/-!
# Tables with a primary key

A relational table is a list of rows whose keys are pairwise distinct.  The
statements a single-table program issues are

* `Table.find k` — `SELECT … WHERE key = k`,
* `Table.update p f` — `UPDATE … SET f WHERE p`, where `f` keeps the key,
* `Table.insert r` — `INSERT`, which a primary-key violation turns into a no-op,
* `Table.delete p` — `DELETE … WHERE p`.

Each has one specification lemma in terms of `find`, so that a proof about a program never
opens the row list.
-/

/-- Rows of type `ρ` with pairwise distinct keys. -/
structure Table (ρ : Type*) {κ : Type*} (key : ρ → κ) where
  rows : List ρ
  nodup : (rows.map key).Nodup

namespace Table

variable {ρ κ : Type*} {key : ρ → κ}

/-- The table with no rows. -/
def empty : Table ρ key := ⟨[], by simp⟩

instance : EmptyCollection (Table ρ key) := ⟨empty⟩

instance : Membership ρ (Table ρ key) := ⟨fun t r => r ∈ t.rows⟩

@[simp] theorem mem_rows {t : Table ρ key} {r : ρ} : r ∈ t.rows ↔ r ∈ t := Iff.rfl

@[simp] theorem not_mem_empty (r : ρ) : r ∉ (∅ : Table ρ key) := List.not_mem_nil

@[ext] theorem ext {t t' : Table ρ key} (h : t.rows = t'.rows) : t = t' := by
  cases t; cases t'; cases h; rfl

/-- Two rows of a table with the same key are the same row. -/
theorem eq_of_key_eq {t : Table ρ key} {r r' : ρ} (hr : r ∈ t) (hr' : r' ∈ t)
    (h : key r = key r') : r = r' :=
  List.inj_on_of_nodup_map t.nodup hr hr' h

/-! ### Updating rows in place -/

/-- `UPDATE … SET f WHERE p`, for an assignment `f` that leaves the key alone. -/
def update (t : Table ρ key) (p : ρ → Bool) (f : ρ → ρ) (hf : ∀ r, key (f r) = key r) :
    Table ρ key where
  rows := t.rows.map fun r => if p r then f r else r
  nodup := by
    have hkeys : (t.rows.map fun r => if p r then f r else r).map key = t.rows.map key := by
      rw [List.map_map]
      refine List.map_congr_left fun r _ => ?_
      by_cases h : p r <;> simp [h, hf]
    rw [hkeys]; exact t.nodup

theorem mem_update {t : Table ρ key} {p : ρ → Bool} {f : ρ → ρ}
    {hf : ∀ r, key (f r) = key r} {r : ρ} :
    r ∈ t.update p f hf ↔ ∃ r₀ ∈ t, (if p r₀ then f r₀ else r₀) = r :=
  List.mem_map

/-- An `UPDATE` that matches no row changes nothing. -/
theorem update_eq_self {t : Table ρ key} {p : ρ → Bool} {f : ρ → ρ}
    {hf : ∀ r, key (f r) = key r} (h : ∀ r ∈ t, p r = false) : t.update p f hf = t := by
  apply ext
  show t.rows.map _ = t.rows
  conv_rhs => rw [← List.map_id t.rows]
  refine List.map_congr_left fun r hr => ?_
  simp [h r hr]

/-! ### Deleting rows -/

/-- `DELETE … WHERE p`. -/
def delete (t : Table ρ key) (p : ρ → Bool) : Table ρ key where
  rows := t.rows.filter fun r => !p r
  nodup := t.nodup.sublist (List.Sublist.map key List.filter_sublist)

theorem mem_delete {t : Table ρ key} {p : ρ → Bool} {r : ρ} :
    r ∈ t.delete p ↔ r ∈ t ∧ p r = false := by
  show r ∈ t.rows.filter _ ↔ _
  simp

/-! ### Inserting rows -/

variable [DecidableEq κ]

/-- Whether some row has the key `k`. -/
def hasKey (t : Table ρ key) (k : κ) : Bool := t.rows.any fun r => key r = k

theorem hasKey_eq_false {t : Table ρ key} {k : κ} :
    t.hasKey k = false ↔ ∀ r ∈ t, key r ≠ k := by
  simp [hasKey]

/-- `INSERT` of a row; a row with a key that is already there is refused. -/
def insert (t : Table ρ key) (r : ρ) : Table ρ key :=
  if h : t.hasKey (key r) = false then
    { rows := t.rows ++ [r]
      nodup := by
        rw [List.map_append, List.nodup_append]
        refine ⟨t.nodup, by simp, ?_⟩
        intro k hk k' hk'
        obtain ⟨r', hr', rfl⟩ := List.mem_map.mp hk
        rw [List.map_singleton, List.mem_singleton] at hk'
        exact hk' ▸ hasKey_eq_false.mp h r' hr' }
  else t

theorem mem_insert_of_mem {t : Table ρ key} {r r' : ρ} (h : r' ∈ t) : r' ∈ t.insert r := by
  unfold insert
  split
  · exact List.mem_append_left _ h
  · exact h

theorem mem_insert {t : Table ρ key} {r r' : ρ} (h : r' ∈ t.insert r) :
    r' ∈ t ∨ (r' = r ∧ ∀ r₀ ∈ t, key r₀ ≠ key r) := by
  unfold insert at h
  split at h
  · rename_i hfresh
    rcases List.mem_append.mp h with h | h
    · exact Or.inl h
    · exact Or.inr ⟨List.mem_singleton.mp h, hasKey_eq_false.mp hfresh⟩
  · exact Or.inl h

/-! ### Looking a row up by its key -/

/-- `SELECT … WHERE key = k`. -/
def find (t : Table ρ key) (k : κ) : Option ρ := t.rows.find? fun r => key r = k

@[simp] theorem find_empty (k : κ) : (∅ : Table ρ key).find k = none := rfl

theorem find_eq_some {t : Table ρ key} {k : κ} {r : ρ} :
    t.find k = some r ↔ r ∈ t ∧ key r = k := by
  have sound : ∀ {r'}, t.find k = some r' → r' ∈ t ∧ key r' = k := fun h =>
    ⟨List.mem_of_find?_eq_some h, by simpa using List.find?_some h⟩
  refine ⟨sound, ?_⟩
  rintro ⟨hr, hk⟩
  cases hf : t.find k with
  | none =>
    have habsent := List.find?_eq_none.mp hf r hr
    simp [hk] at habsent
  | some r' =>
    obtain ⟨hr', hk'⟩ := sound hf
    rw [eq_of_key_eq hr' hr (hk'.trans hk.symm)]

theorem find_eq_none {t : Table ρ key} {k : κ} :
    t.find k = none ↔ ∀ r ∈ t, key r ≠ k := by
  simp [find]

/-- Rows that are changed in place are found where they were. -/
theorem find_of_rows_map {t t' : Table ρ key} {g : ρ → ρ} (h : t'.rows = t.rows.map g)
    (hg : ∀ r ∈ t, key (g r) = key r) (k : κ) : t'.find k = (t.find k).map g := by
  have mem_iff : ∀ {r}, r ∈ t' ↔ ∃ r₀ ∈ t, g r₀ = r := by
    intro r
    rw [← mem_rows, h]
    exact List.mem_map
  cases hk : t.find k with
  | none =>
    rw [Option.map_none, find_eq_none]
    intro r hr
    obtain ⟨r₀, hr₀, rfl⟩ := mem_iff.mp hr
    rw [hg r₀ hr₀]
    exact find_eq_none.mp hk r₀ hr₀
  | some r₀ =>
    obtain ⟨hr₀, hkey⟩ := find_eq_some.mp hk
    rw [Option.map_some, find_eq_some]
    exact ⟨mem_iff.mpr ⟨r₀, hr₀, rfl⟩, (hg r₀ hr₀).trans hkey⟩

/-- The row under `k` after an `UPDATE` is the updated row. -/
theorem find_update {t : Table ρ key} {p : ρ → Bool} {f : ρ → ρ}
    {hf : ∀ r, key (f r) = key r} (k : κ) :
    (t.update p f hf).find k = (t.find k).map fun r => if p r then f r else r := by
  refine find_of_rows_map rfl (fun r _ => ?_) k
  by_cases hp : p r = true
  · rw [if_pos hp]; exact hf r
  · rw [if_neg hp]

/-- An `UPDATE` removes no row. -/
theorem find_update_ne_none {t : Table ρ key} {p : ρ → Bool} {f : ρ → ρ}
    {hf : ∀ r, key (f r) = key r} {k : κ} {r : ρ} (h : t.find k = some r) :
    (t.update p f hf).find k ≠ none := by
  rw [find_update, h]
  simp

/-- The row under `k` after a `DELETE` is the row from before, if the `DELETE` spared it. -/
theorem find_delete {t : Table ρ key} {p : ρ → Bool} (k : κ) :
    (t.delete p).find k = (t.find k).filter fun r => !p r := by
  cases hk : t.find k with
  | none =>
    rw [Option.filter_none, find_eq_none]
    intro r hr
    exact find_eq_none.mp hk r (mem_delete.mp hr).1
  | some r =>
    obtain ⟨hr, hkey⟩ := find_eq_some.mp hk
    cases hp : p r with
    | false =>
      rw [Option.filter_some, hp]
      exact find_eq_some.mpr ⟨mem_delete.mpr ⟨hr, hp⟩, hkey⟩
    | true =>
      rw [Option.filter_some, hp]
      refine find_eq_none.mpr fun r' hr' hkey' => ?_
      obtain ⟨hmem, hspared⟩ := mem_delete.mp hr'
      rw [eq_of_key_eq hmem hr (hkey'.trans hkey.symm), hp] at hspared
      cases hspared

/-- A row that is there is still there, unchanged, after an `INSERT`. -/
theorem find_insert_of_some {t : Table ρ key} {r r₀ : ρ} {k : κ} (h : t.find k = some r₀) :
    (t.insert r).find k = some r₀ := by
  obtain ⟨hr₀, hk⟩ := find_eq_some.mp h
  exact find_eq_some.mpr ⟨mem_insert_of_mem hr₀, hk⟩

/-- A row found after an `INSERT` was there before, or is the new row. -/
theorem find_insert {t : Table ρ key} {r r' : ρ} {k : κ} (h : (t.insert r).find k = some r') :
    t.find k = some r' ∨ (t.find k = none ∧ r' = r) := by
  obtain ⟨hr', hk⟩ := find_eq_some.mp h
  rcases mem_insert hr' with hr' | ⟨rfl, hfresh⟩
  · exact Or.inl (find_eq_some.mpr ⟨hr', hk⟩)
  · exact Or.inr ⟨find_eq_none.mpr (fun r₀ hr₀ => hk ▸ hfresh r₀ hr₀), rfl⟩

/-- The row under `k` after an `INSERT` of a row with a fresh key. -/
theorem find_insert_of_fresh {t : Table ρ key} {r : ρ} (h : t.find (key r) = none) (k : κ) :
    (t.insert r).find k = if key r = k then some r else t.find k := by
  have hfresh : t.hasKey (key r) = false := hasKey_eq_false.mpr (find_eq_none.mp h)
  have hmem : r ∈ t.insert r := by
    unfold insert
    rw [dif_pos hfresh]
    exact List.mem_append_right _ (List.mem_singleton.mpr rfl)
  by_cases hk : key r = k
  · rw [if_pos hk]
    exact find_eq_some.mpr ⟨hmem, hk⟩
  · rw [if_neg hk]
    cases hf : t.find k with
    | some r₀ => exact find_insert_of_some hf
    | none =>
      refine find_eq_none.mpr fun r' hr' hkey => ?_
      rcases mem_insert hr' with hr' | ⟨rfl, -⟩
      · exact find_eq_none.mp hf r' hr' hkey
      · exact hk hkey

/-! ### Inserting or replacing a row -/

/-- `INSERT … ON CONFLICT (key) DO UPDATE`. -/
def upsert (t : Table ρ key) (r : ρ) : Table ρ key := (t.delete fun r' => key r' = key r).insert r

theorem find_upsert {t : Table ρ key} (r : ρ) (k : κ) :
    (t.upsert r).find k = if key r = k then some r else t.find k := by
  have hfresh : (t.delete fun r' => key r' = key r).find (key r) = none :=
    find_eq_none.mpr fun r' hr' => by simpa using (mem_delete.mp hr').2
  rw [upsert, find_insert_of_fresh hfresh]
  split
  · rfl
  next hk =>
    rw [find_delete]
    cases hf : t.find k with
    | none => rfl
    | some r' =>
      have hne : key r' ≠ key r := fun h => hk (h.symm.trans (find_eq_some.mp hf).2)
      simp [Option.filter, hne]

/-- The row under `k` after a list of such writes, the last of which is the first of the list. -/
theorem find_foldr_upsert {t : Table ρ key} (rs : List ρ) (k : κ) :
    (rs.foldr (fun r t => t.upsert r) t).find k =
      (rs.find? fun r => key r = k).or (t.find k) := by
  induction rs with
  | nil => rfl
  | cons r rs ih =>
    rw [List.foldr_cons, find_upsert, List.find?_cons, ih]
    by_cases hk : key r = k <;> simp [hk]

end Table
