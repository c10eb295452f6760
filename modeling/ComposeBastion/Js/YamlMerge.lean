import ComposeBastion.Js.Yaml

namespace ComposeBastion.Js

/-!
# What mappings inherit

A mapping inherits entries through `<<`, from the mappings that stand there or that aliases there
name.  Whether a document has none of some keys to inherit can be told without resolving it.

* `Written` — a mapping whose entries are read as they are written;
* `Yaml.addsNone` — merged into a mapping, the node adds none of the keys;
* `Yaml.tidy` — all nodes with the names of merged aliases are of that kind;
* `Yaml.resolve_tidy` — so are the trees that the aliases of such a document stand for;
* `ResolvesTidy.get_eq_none` — what such a mapping does not have literally, it does not inherit;
* `KeepsTidy` — changes of a document after which it still is tidy.
-/

/-! ### Entries -/

namespace Yaml

/-- The entries of a mapping. -/
def entries : Yaml → List (Yaml × Yaml)
  | .map _ items => items
  | _ => []

/-- The anchor of a node. -/
def anchor : Yaml → Option String
  | .scalar anchor _ => anchor
  | .map anchor _ => anchor
  | .seq anchor _ => anchor
  | .reference _ => none

theorem keyText_of_isKey {node : Yaml} {key : String} (h : node.isKey key = true) :
    node.keyText = key := by
  unfold isKey at h
  split at h
  · exact of_decide_eq_true h
  · cases h

theorem isKey_inj {node : Yaml} {key other : String} (h : node.isKey key = true)
    (hother : node.isKey other = true) : key = other := by
  rw [← keyText_of_isKey h, ← keyText_of_isKey hother]

theorem isAlias_of_isKey {node : Yaml} {key : String} (h : node.isKey key = true) :
    node.isAlias = false := by
  cases node with
  | reference name => cases h
  | scalar anchor value => rfl
  | map anchor items => rfl
  | seq anchor items => rfl

theorem isKey_text (key other : String) : (text key).isKey other = decide (key = other) := rfl

theorem exists_entry_of_get {node value : Yaml} {key : String} (h : node.get key = some value) :
    ∃ item ∈ node.entries, item.1.isKey key = true ∧ item.2 = value := by
  cases node with
  | map anchor items =>
    obtain ⟨item, hfind, rfl⟩ := Option.map_eq_some_iff.mp h
    exact ⟨item, List.mem_of_find?_eq_some hfind, by simpa using List.find?_some hfind, rfl⟩
  | scalar anchor value => cases h
  | seq anchor items => cases h
  | reference name => cases h

theorem isKey_eq_false_of_get {node : Yaml} {key : String} (h : node.get key = none) :
    ∀ item ∈ node.entries, item.1.isKey key = false := by
  cases node with
  | map anchor items =>
    have hfind := Option.map_eq_none_iff.mp h
    exact fun item hitem => by simpa using List.find?_eq_none.mp hfind item hitem
  | scalar anchor value => exact fun item hitem => absurd hitem List.not_mem_nil
  | seq anchor items => exact fun item hitem => absurd hitem List.not_mem_nil
  | reference name => exact fun item hitem => absurd hitem List.not_mem_nil

theorem mem_modifyItem {key : String} {f : Yaml → Yaml} {items : List (Yaml × Yaml)}
    {item : Yaml × Yaml} (h : item ∈ modifyItem key f items) :
    item ∈ items ∨ ∃ old ∈ items, old.1.isKey key = true ∧ item = (old.1, f old.2) := by
  induction items with
  | nil => cases h
  | cons first rest ih =>
    rw [modifyItem] at h
    split at h
    next hkey =>
      rcases List.mem_cons.mp h with rfl | h
      · exact .inr ⟨first, List.mem_cons_self, hkey, rfl⟩
      · exact .inl (List.mem_cons_of_mem _ h)
    · rcases List.mem_cons.mp h with rfl | h
      · exact .inl List.mem_cons_self
      · rcases ih h with h | ⟨old, hold, hkey, heq⟩
        · exact .inl (List.mem_cons_of_mem _ h)
        · exact .inr ⟨old, List.mem_cons_of_mem _ hold, hkey, heq⟩

/-- An entry of a mapping with one value changed is an old one, or the changed one. -/
theorem mem_entries_modify {node : Yaml} {key : String} {f : Yaml → Yaml} {item : Yaml × Yaml}
    (h : item ∈ (node.modify key f).entries) :
    item ∈ node.entries ∨
      ∃ old ∈ node.entries, old.1.isKey key = true ∧ item = (old.1, f old.2) := by
  cases node with
  | map anchor items => exact mem_modifyItem h
  | scalar anchor value => cases h
  | seq anchor items => cases h
  | reference name => cases h

/-- An entry of a mapping with one value set is an old one, or the one that was set. -/
theorem mem_entries_set {node value : Yaml} {key : String} {item : Yaml × Yaml}
    (h : item ∈ (node.set key value).entries) :
    item ∈ node.entries ∨ item.1.isKey key = true ∧ item.2 = value ∧
      (item.1 = text key ∨ ∃ old ∈ node.entries, old.1 = item.1) := by
  cases node with
  | map anchor items =>
    by_cases hfound : (getItem key items).isSome = true
    · rw [set, if_pos hfound] at h
      rcases mem_modifyItem h with h | ⟨old, hold, hkey, rfl⟩
      · exact .inl h
      · exact .inr ⟨hkey, rfl, .inr ⟨old, hold, rfl⟩⟩
    · rw [set, if_neg hfound] at h
      rcases List.mem_append.mp h with h | h
      · exact .inl h
      · obtain rfl := List.mem_singleton.mp h
        exact .inr ⟨by simp [isKey_text], rfl, .inl rfl⟩
  | scalar anchor value => cases h
  | seq anchor items => cases h
  | reference name => cases h

theorem exists_set_map (anchor : Option String) (items : List (Yaml × Yaml)) (key : String)
    (value : Yaml) : ∃ items', (Yaml.map anchor items).set key value = .map anchor items' := by
  by_cases hfound : (getItem key items).isSome = true
  · exact ⟨_, by rw [set, if_pos hfound]⟩
  · exact ⟨_, by rw [set, if_neg hfound]⟩

theorem mem_entries_set_map {anchor : Option String} {items items' : List (Yaml × Yaml)}
    {key : String} {value : Yaml} (heq : (Yaml.map anchor items).set key value = .map anchor items')
    {item : Yaml × Yaml} (h : item ∈ items') :
    item ∈ items ∨ item.1.isKey key = true ∧ item.2 = value ∧
      (item.1 = text key ∨ ∃ old ∈ items, old.1 = item.1) := by
  have hentries : item ∈ ((Yaml.map anchor items).set key value).entries := heq ▸ h
  exact mem_entries_set hentries

end Yaml

/-- The key is read as it is written: it is no alias, and no `<<`. -/
def LiteralKey (item : Yaml × Yaml) : Prop := item.1.isAlias = false ∧ item.1.isKey "<<" = false

/-- No key of the mapping is an alias, and what is under a key is as `part` says. -/
def Written (part : String → Yaml → Prop) (node : Yaml) : Prop :=
  ∀ item ∈ node.entries, item.1.isAlias = false ∧ part item.1.keyText item.2

instance {part : String → Yaml → Prop} [∀ key value, Decidable (part key value)] (node : Yaml) :
    Decidable (Written part node) :=
  inferInstanceAs (Decidable (∀ item ∈ node.entries, _ ∧ _))

namespace Written

variable {part : String → Yaml → Prop} {node : Yaml}

theorem part_of_isKey (h : Written part node) {item : Yaml × Yaml} (hitem : item ∈ node.entries)
    {key : String} (hkey : item.1.isKey key = true) : part key item.2 :=
  Yaml.keyText_of_isKey hkey ▸ (h item hitem).2

theorem part_of_get (h : Written part node) {key : String} {value : Yaml}
    (hget : node.get key = some value) : part key value := by
  obtain ⟨item, hitem, hkey, rfl⟩ := Yaml.exists_entry_of_get hget
  exact h.part_of_isKey hitem hkey

/-- Where `part` allows nothing under `<<`, every key is read as it is written. -/
theorem literalKey (h : Written part node) (hmerge : ∀ value, ¬ part "<<" value) :
    ∀ item ∈ node.entries, LiteralKey item := by
  refine fun item hitem => ⟨(h item hitem).1, ?_⟩
  rw [← Bool.not_eq_true]
  exact fun hkey => hmerge item.2 (h.part_of_isKey hitem hkey)

/-- A value may change to another that is as `part` says. -/
theorem modify (h : Written part node) {key : String} {f : Yaml → Yaml}
    (hf : ∀ item ∈ node.entries, item.1.isKey key = true → part key (f item.2)) :
    Written part (node.modify key f) := by
  intro item hitem
  rcases Yaml.mem_entries_modify hitem with hitem | ⟨old, hold, hkey, rfl⟩
  · exact h item hitem
  · refine ⟨(h old hold).1, ?_⟩
    rw [Yaml.keyText_of_isKey hkey]
    exact hf old hold hkey

theorem set (h : Written part node) {key : String} {value : Yaml} (hvalue : part key value) :
    Written part (node.set key value) := by
  intro item hitem
  rcases Yaml.mem_entries_set hitem with hitem | ⟨hkey, rfl, -⟩
  · exact h item hitem
  · exact ⟨Yaml.isAlias_of_isKey hkey, (Yaml.keyText_of_isKey hkey).symm ▸ hvalue⟩

end Written

/-! ### Documents with nothing to inherit -/

namespace Yaml

variable (keys named : List String)

mutual

/-- Merged into a mapping, the node adds none of the keys: an alias has one of the names, and is
    looked at where its anchor is. -/
def addsNone : Yaml → Bool
  | .scalar _ _ => true
  | .map _ items => itemsAddNone items
  | .seq _ items => seqAddsNone items
  | .reference name => named.contains name

def itemsAddNone : List (Yaml × Yaml) → Bool
  | [] => true
  | (key, value) :: rest =>
    !key.isAlias && !keys.contains key.keyText && (!key.isKey "<<" || addsNone value)
      && itemsAddNone rest

def seqAddsNone : List Yaml → Bool
  | [] => true
  | item :: rest => addsNone item && seqAddsNone rest

end

mutual

/-- No node that has one of the names as its anchor adds one of the keys where it is merged. -/
def tidy : Yaml → Bool
  | .scalar _ _ => true
  | .map anchor items =>
    (!anchor.any named.contains || itemsAddNone keys named items) && tidyItems items
  | .seq anchor items =>
    (!anchor.any named.contains || seqAddsNone keys named items) && tidySeq items
  | .reference _ => true

def tidyItems : List (Yaml × Yaml) → Bool
  | [] => true
  | (key, value) :: rest => tidy key && tidy value && tidyItems rest

def tidySeq : List Yaml → Bool
  | [] => true
  | item :: rest => tidy item && tidySeq rest

end

end Yaml

section Iff

variable {keys named : List String}

/-- The entry adds none of the keys to a mapping that its own is merged into. -/
structure EntryAddsNone (keys named : List String) (item : Yaml × Yaml) : Prop where
  literal : item.1.isAlias = false
  other : item.1.keyText ∉ keys
  merge : item.1.isKey "<<" = true → item.2.addsNone keys named = true

/-- Both nodes of the entry are tidy. -/
def TidyEntry (keys named : List String) (item : Yaml × Yaml) : Prop :=
  item.1.tidy keys named = true ∧ item.2.tidy keys named = true

theorem itemsAddNone_iff {items : List (Yaml × Yaml)} :
    Yaml.itemsAddNone keys named items = true ↔ ∀ item ∈ items, EntryAddsNone keys named item := by
  induction items with
  | nil => simp [Yaml.itemsAddNone]
  | cons item rest ih =>
    obtain ⟨key, value⟩ := item
    have hentry : EntryAddsNone keys named (key, value) ↔ key.isAlias = false ∧ key.keyText ∉ keys ∧
        (key.isKey "<<" = true → value.addsNone keys named = true) :=
      ⟨fun h => ⟨h.literal, h.other, h.merge⟩, fun h => ⟨h.1, h.2.1, h.2.2⟩⟩
    rw [Yaml.itemsAddNone, Bool.and_eq_true, ih, List.forall_mem_cons, hentry]
    simp [Bool.or_eq_true, and_assoc, ← Bool.not_eq_true, imp_iff_not_or]

theorem seqAddsNone_iff {items : List Yaml} :
    Yaml.seqAddsNone keys named items = true ↔ ∀ item ∈ items, item.addsNone keys named = true := by
  induction items with
  | nil => simp [Yaml.seqAddsNone]
  | cons item rest ih => rw [Yaml.seqAddsNone, Bool.and_eq_true, ih, List.forall_mem_cons]

theorem tidyItems_iff {items : List (Yaml × Yaml)} :
    Yaml.tidyItems keys named items = true ↔ ∀ item ∈ items, TidyEntry keys named item := by
  induction items with
  | nil => simp [Yaml.tidyItems]
  | cons item rest ih =>
    rw [Yaml.tidyItems, Bool.and_eq_true, ih, List.forall_mem_cons, Bool.and_eq_true]
    rfl

theorem tidySeq_iff {items : List Yaml} :
    Yaml.tidySeq keys named items = true ↔ ∀ item ∈ items, item.tidy keys named = true := by
  induction items with
  | nil => simp [Yaml.tidySeq]
  | cons item rest ih => rw [Yaml.tidySeq, Bool.and_eq_true, ih, List.forall_mem_cons]

/-- The node has one of the names as its anchor. -/
def Named (named : List String) (anchor : Option String) : Prop :=
  ∃ name ∈ named, anchor = some name

theorem any_contains_iff {anchor : Option String} :
    anchor.any named.contains = true ↔ Named named anchor := by
  cases anchor <;> simp [Named]

theorem tidy_map_iff {anchor : Option String} {items : List (Yaml × Yaml)} :
    (Yaml.map anchor items).tidy keys named = true ↔
      (Named named anchor → ∀ item ∈ items, EntryAddsNone keys named item) ∧
        ∀ item ∈ items, TidyEntry keys named item := by
  rw [Yaml.tidy, Bool.and_eq_true, tidyItems_iff, ← any_contains_iff, ← itemsAddNone_iff]
  cases anchor.any named.contains <;> simp

theorem tidy_seq_iff {anchor : Option String} {items : List Yaml} :
    (Yaml.seq anchor items).tidy keys named = true ↔
      (Named named anchor → ∀ item ∈ items, item.addsNone keys named = true) ∧
        ∀ item ∈ items, item.tidy keys named = true := by
  rw [Yaml.tidy, Bool.and_eq_true, tidySeq_iff, ← any_contains_iff, ← seqAddsNone_iff]
  cases anchor.any named.contains <;> simp

theorem tidyEntry_of_tidy {node : Yaml} (h : node.tidy keys named = true) :
    ∀ item ∈ node.entries, TidyEntry keys named item := by
  cases node with
  | map anchor items => exact (tidy_map_iff.mp h).2
  | scalar anchor value => exact fun item hitem => absurd hitem List.not_mem_nil
  | seq anchor items => exact fun item hitem => absurd hitem List.not_mem_nil
  | reference name => exact fun item hitem => absurd hitem List.not_mem_nil

theorem tidy_of_get {node value : Yaml} {key : String} (h : node.tidy keys named = true)
    (hget : node.get key = some value) : value.tidy keys named = true := by
  obtain ⟨item, hitem, -, rfl⟩ := Yaml.exists_entry_of_get hget
  exact (tidyEntry_of_tidy h item hitem).2

/-- Where nothing under `<<` changes, only the new values matter. -/
theorem tidy_modify {node : Yaml} {key : String} {f : Yaml → Yaml}
    (h : node.tidy keys named = true) (hkey : key ≠ "<<")
    (hf : ∀ item ∈ node.entries, item.1.isKey key = true → (f item.2).tidy keys named = true) :
    (node.modify key f).tidy keys named = true := by
  cases node with
  | map anchor items =>
    obtain ⟨hnamed, hitems⟩ := tidy_map_iff.mp h
    refine tidy_map_iff.mpr ⟨fun hname item hitem => ?_, fun item hitem => ?_⟩
    · rcases Yaml.mem_modifyItem hitem with hitem | ⟨old, hold, hisKey, rfl⟩
      · exact hnamed hname item hitem
      · have hentry := hnamed hname old hold
        exact ⟨hentry.literal, hentry.other,
          fun hmerge => absurd (Yaml.isKey_inj hisKey hmerge) hkey⟩
    · rcases Yaml.mem_modifyItem hitem with hitem | ⟨old, hold, hisKey, rfl⟩
      · exact hitems item hitem
      · exact ⟨(hitems old hold).1, hf old hold hisKey⟩
  | scalar anchor value => exact h
  | seq anchor items => exact h
  | reference name => exact h

/-- A new mapping of tidy values is tidy. -/
theorem tidy_object {items : List (String × Yaml)}
    (h : ∀ item ∈ items, item.2.tidy keys named = true) :
    (Yaml.object items).tidy keys named = true := by
  refine tidy_map_iff.mpr ⟨?_, fun item hitem => ?_⟩
  · rintro ⟨name, -, heq⟩
    cases heq
  · obtain ⟨entry, hentry, rfl⟩ := List.mem_map.mp hitem
    exact ⟨rfl, h entry hentry⟩

end Iff

/-! ### What aliases stand for -/

section Resolving

variable {keys named : List String}

/-- Merged into a mapping, the tree adds none of the keys. -/
def Tree.AddsNone (keys : List String) (tree : Tree) : Prop :=
  ∀ key ∈ keys, Tree.merged key tree = none

/-- The trees that have one of the names add none of the keys. -/
def Anchors.Tidy (keys named : List String) (anchors : Anchors) : Prop :=
  ∀ entry ∈ anchors, entry.1 ∈ named → entry.2.AddsNone keys

/-- The node stands for the tree in a tidy document. -/
def ResolvesTidy (keys named : List String) (node : Yaml) (tree : Tree) : Prop :=
  node.tidy keys named = true ∧ ∃ anchors anchors', Anchors.Tidy keys named anchors ∧
    node.resolve anchors = some (anchors', tree)

theorem ResolvesTidy.resolves {node : Yaml} {tree : Tree} (h : ResolvesTidy keys named node tree) :
    Resolves node tree := by
  obtain ⟨-, anchors, anchors', -, h⟩ := h
  exact ⟨anchors, anchors', h⟩

/-- A key that is no alias is read as it is written. -/
theorem isKey_of_string {node : Yaml} {tree : Tree} {key : String} (h : Resolves node tree)
    (hliteral : node.isAlias = false) (hkey : tree.string = some key) : node.isKey key = true := by
  cases node with
  | scalar anchor value =>
    rw [h.scalar] at hkey
    cases value with
    | string text => simpa [Yaml.isKey, Tree.string] using hkey
    | null => cases hkey
    | bool value => cases hkey
    | number text => cases hkey
    | builtin text => cases hkey
  | map anchor items =>
    obtain ⟨trees, rfl, -⟩ := h.map
    cases hkey
  | seq anchor items =>
    obtain ⟨trees, rfl, -⟩ := h.seq
    cases hkey
  | reference name => cases hliteral

theorem note_eq {anchors anchors' : Anchors} {anchor : Option String} {tree tree' : Tree}
    (h : anchors.note anchor tree = (anchors', tree')) :
    tree' = tree ∧ anchors' = (anchors.note anchor tree).1 := by
  rw [h]
  refine ⟨?_, rfl⟩
  rw [← @snd_note anchors anchor tree, h]

theorem Anchors.Tidy.note {anchors : Anchors} {anchor : Option String} {tree : Tree}
    (h : anchors.Tidy keys named) (htree : Named named anchor → tree.AddsNone keys) :
    (anchors.note anchor tree).1.Tidy keys named := by
  cases anchor with
  | none => exact h
  | some name =>
    intro entry hentry hname
    rcases List.mem_cons.mp hentry with rfl | hentry
    · exact htree ⟨name, hname, rfl⟩
    · exact h entry hentry hname

theorem Tree.AddsNone.get {tree : Tree} (h : tree.AddsNone keys) : ∀ key ∈ keys,
    Tree.get key tree = none := by
  intro key hkey
  cases tree with
  | map items =>
    have hnone := h key hkey
    rw [Tree.merged] at hnone
    rw [Tree.get, hnone]
  | scalar value => rfl
  | seq items => rfl

mutual

/-- **Resolving a tidy node** keeps the anchors tidy, and gives a tree that adds nothing when the
    node does. -/
theorem Yaml.resolve_tidy : ∀ (node : Yaml) {anchors anchors' : Anchors} {tree : Tree},
    node.tidy keys named = true → anchors.Tidy keys named →
      node.resolve anchors = some (anchors', tree) →
        anchors'.Tidy keys named ∧ (node.addsNone keys named = true → tree.AddsNone keys)
  | .scalar anchor value, anchors, anchors', tree, htidy, hanchors, h => by
    have hnone : (Tree.scalar value).AddsNone keys := fun key _ => rfl
    rw [Yaml.resolve, Option.some.injEq] at h
    obtain ⟨rfl, rfl⟩ := note_eq h
    exact ⟨hanchors.note fun _ => hnone, fun _ => hnone⟩
  | .map anchor items, anchors, anchors', tree, htidy, hanchors, h => by
    rw [Yaml.tidy, Bool.and_eq_true] at htidy
    rw [Yaml.resolve] at h
    split at h
    · cases h
    next inner trees hitems =>
      split at h
      next hnodup =>
        obtain ⟨hinner, hadds⟩ := Yaml.resolveItems_tidy items htidy.2 hanchors hitems
        obtain ⟨rfl, rfl⟩ := note_eq (Option.some.inj h)
        have hnone : Yaml.itemsAddNone keys named items = true → (Tree.map trees).AddsNone keys := by
          intro hitems key hkey
          rw [Tree.merged, (hadds hitems key hkey).1, (hadds hitems key hkey).2, Option.none_or]
        refine ⟨hinner.note fun hnamed => ?_, hnone⟩
        -- a mapping that may be merged by its name was looked at there
        have hany := any_contains_iff.mpr hnamed
        rw [hany] at htidy
        exact hnone (by simpa using htidy.1)
      · cases h
  | .seq anchor items, anchors, anchors', tree, htidy, hanchors, h => by
    rw [Yaml.tidy, Bool.and_eq_true] at htidy
    rw [Yaml.resolve] at h
    split at h
    · cases h
    next inner trees hitems =>
      obtain ⟨hinner, hadds⟩ := Yaml.resolveSeq_tidy items htidy.2 hanchors hitems
      obtain ⟨rfl, rfl⟩ := note_eq (Option.some.inj h)
      have hnone : Yaml.seqAddsNone keys named items = true → (Tree.seq trees).AddsNone keys :=
        fun hitems key hkey => hadds hitems key hkey
      refine ⟨hinner.note fun hnamed => ?_, hnone⟩
      have hany := any_contains_iff.mpr hnamed
      rw [hany] at htidy
      exact hnone (by simpa using htidy.1)
  | .reference name, anchors, anchors', tree, htidy, hanchors, h => by
    obtain ⟨found, hfound, heq⟩ := Option.map_eq_some_iff.mp h
    obtain ⟨rfl, rfl⟩ := Prod.mk.inj heq
    obtain ⟨front, back, rfl, -⟩ := List.lookup_eq_some_iff.mp hfound
    -- the alias is merged only if its name is one that is looked at
    refine ⟨hanchors, fun hadds => hanchors (name, found) (by simp) ?_⟩
    simpa [Yaml.addsNone] using hadds

theorem Yaml.resolveItems_tidy : ∀ (items : List (Yaml × Yaml)) {anchors anchors' : Anchors}
    {trees : List (Tree × Tree)}, Yaml.tidyItems keys named items = true →
      anchors.Tidy keys named → Yaml.resolveItems anchors items = some (anchors', trees) →
        anchors'.Tidy keys named ∧ (Yaml.itemsAddNone keys named items = true → ∀ key ∈ keys,
          Tree.getItem key trees = none ∧ Tree.inherited key trees = none)
  | [], anchors, anchors', trees, htidy, hanchors, h => by
    obtain ⟨rfl, rfl⟩ := Prod.mk.inj (Option.some.inj h)
    exact ⟨hanchors, fun _ key _ => ⟨rfl, rfl⟩⟩
  | (name, value) :: rest, anchors, anchors', trees, htidy, hanchors, h => by
    rw [Yaml.tidyItems, Bool.and_eq_true, Bool.and_eq_true] at htidy
    rw [Yaml.resolveItems] at h
    split at h
    · cases h
    next nameAnchors nameTree hname =>
      split at h
      · cases h
      next valueAnchors valueTree hvalue =>
        obtain ⟨⟨last, restTrees⟩, hrest, hcons⟩ := Option.map_eq_some_iff.mp h
        obtain ⟨rfl, rfl⟩ := Prod.mk.inj hcons
        obtain ⟨hnameAnchors, -⟩ := Yaml.resolve_tidy name htidy.1.1 hanchors hname
        obtain ⟨hvalueAnchors, hvalueAdds⟩ :=
          Yaml.resolve_tidy value htidy.1.2 hnameAnchors hvalue
        obtain ⟨hlast, hrestAdds⟩ := Yaml.resolveItems_tidy rest htidy.2 hvalueAnchors hrest
        refine ⟨hlast, fun hadds key hkey => ?_⟩
        obtain ⟨hentry, hothers⟩ := List.forall_mem_cons.mp (itemsAddNone_iff.mp hadds)
        obtain ⟨hget, hinherited⟩ := hrestAdds (itemsAddNone_iff.mpr hothers) key hkey
        have hresolves : Resolves name nameTree := ⟨anchors, nameAnchors, hname⟩
        constructor
        · have hother : nameTree.string ≠ some key := by
            intro heq
            have hisKey := isKey_of_string hresolves hentry.literal heq
            exact hentry.other (Yaml.keyText_of_isKey hisKey ▸ hkey)
          rw [Tree.getItem, List.find?_cons_of_neg (by simpa using hother)]
          exact hget
        · rw [Tree.inherited, hinherited, Option.or_none]
          split
          next hmerge =>
            have hisKey := isKey_of_string hresolves hentry.literal hmerge
            exact hvalueAdds (hentry.merge hisKey) key hkey
          · rfl

theorem Yaml.resolveSeq_tidy : ∀ (items : List Yaml) {anchors anchors' : Anchors}
    {trees : List Tree}, Yaml.tidySeq keys named items = true →
      anchors.Tidy keys named → Yaml.resolveSeq anchors items = some (anchors', trees) →
        anchors'.Tidy keys named ∧ (Yaml.seqAddsNone keys named items = true → ∀ key ∈ keys,
          Tree.firstOf key trees = none)
  | [], anchors, anchors', trees, htidy, hanchors, h => by
    obtain ⟨rfl, rfl⟩ := Prod.mk.inj (Option.some.inj h)
    exact ⟨hanchors, fun _ key _ => rfl⟩
  | item :: rest, anchors, anchors', trees, htidy, hanchors, h => by
    rw [Yaml.tidySeq, Bool.and_eq_true] at htidy
    rw [Yaml.resolveSeq] at h
    split at h
    · cases h
    next itemAnchors tree hitem =>
      obtain ⟨⟨last, restTrees⟩, hrest, hcons⟩ := Option.map_eq_some_iff.mp h
      obtain ⟨rfl, rfl⟩ := Prod.mk.inj hcons
      obtain ⟨hitemAnchors, hitemAdds⟩ := Yaml.resolve_tidy item htidy.1 hanchors hitem
      obtain ⟨hlast, hrestAdds⟩ := Yaml.resolveSeq_tidy rest htidy.2 hitemAnchors hrest
      refine ⟨hlast, fun hadds key hkey => ?_⟩
      rw [Yaml.seqAddsNone, Bool.and_eq_true] at hadds
      rw [Tree.firstOf, (hitemAdds hadds.1).get key hkey, hrestAdds hadds.2 key hkey,
        Option.none_or]

end

end Resolving

/-! ### Entries that are not inherited -/

section Entries

variable {keys named : List String}

theorem resolveItems_tidy_forall₂ {items : List (Yaml × Yaml)} {anchors anchors' : Anchors}
    {trees : List (Tree × Tree)} (htidy : ∀ item ∈ items, TidyEntry keys named item)
    (hanchors : anchors.Tidy keys named)
    (h : Yaml.resolveItems anchors items = some (anchors', trees)) :
    List.Forall₂ (fun item tree => ResolvesTidy keys named item.1 tree.1 ∧
      ResolvesTidy keys named item.2 tree.2) items trees := by
  induction items generalizing anchors trees with
  | nil =>
    obtain ⟨-, rfl⟩ := Prod.mk.inj (Option.some.inj h)
    exact .nil
  | cons item rest ih =>
    obtain ⟨⟨hname, hvalue⟩, hrest⟩ := List.forall_mem_cons.mp htidy
    rw [Yaml.resolveItems] at h
    split at h
    · cases h
    next nameAnchors nameTree hnameTree =>
      split at h
      · cases h
      next valueAnchors valueTree hvalueTree =>
        obtain ⟨⟨last, restTrees⟩, hrestTrees, hcons⟩ := Option.map_eq_some_iff.mp h
        obtain ⟨rfl, rfl⟩ := Prod.mk.inj hcons
        obtain ⟨hnameAnchors, -⟩ := Yaml.resolve_tidy item.1 hname hanchors hnameTree
        obtain ⟨hvalueAnchors, -⟩ := Yaml.resolve_tidy item.2 hvalue hnameAnchors hvalueTree
        exact .cons ⟨⟨hname, _, _, hanchors, hnameTree⟩, ⟨hvalue, _, _, hnameAnchors, hvalueTree⟩⟩
          (ih hrest hvalueAnchors hrestTrees)

theorem ResolvesTidy.map {anchor : Option String} {items : List (Yaml × Yaml)} {tree : Tree}
    (h : ResolvesTidy keys named (.map anchor items) tree) :
    ∃ trees, tree = .map trees ∧
      List.Forall₂ (fun item t => ResolvesTidy keys named item.1 t.1 ∧
        ResolvesTidy keys named item.2 t.2) items trees := by
  obtain ⟨htidy, anchors, anchors', hanchors, h⟩ := h
  rw [Yaml.resolve] at h
  split at h
  · cases h
  next inner trees hitems =>
    split at h
    · exact ⟨trees, (note_eq (Option.some.inj h)).1,
        resolveItems_tidy_forall₂ (tidy_map_iff.mp htidy).2 hanchors hitems⟩
    · cases h

theorem ResolvesTidy.addsNone {node : Yaml} {tree : Tree} (h : ResolvesTidy keys named node tree)
    (hadds : node.addsNone keys named = true) : tree.AddsNone keys := by
  obtain ⟨htidy, anchors, anchors', hanchors, h⟩ := h
  exact (Yaml.resolve_tidy node htidy hanchors h).2 hadds

theorem Tree.inherited_eq_none_of_merged {items : List (Tree × Tree)} {key : String}
    (h : ∀ item ∈ items, item.1.string = some "<<" → Tree.merged key item.2 = none) :
    Tree.inherited key items = none := by
  induction items with
  | nil => rfl
  | cons item rest ih =>
    obtain ⟨hfirst, hrest⟩ := List.forall_mem_cons.mp h
    rw [Tree.inherited, ih hrest, Option.or_none]
    split
    next hmerge => exact hfirst hmerge
    · rfl

/-- An entry that is read is a literal one or an inherited one. -/
theorem get_cases_of_forall₂ {R : Yaml → Tree → Prop} {items : List (Yaml × Yaml)}
    {trees : List (Tree × Tree)} {t : Tree} {key : String}
    (hR : ∀ node tree, R node tree → Resolves node tree)
    (hitems : List.Forall₂ (fun item t => R item.1 t.1 ∧ R item.2 t.2) items trees)
    (hliteral : ∀ item ∈ items, item.1.isAlias = false)
    (hget : (Tree.map trees).get key = some t) :
    (∃ item ∈ items, item.1.isKey key = true ∧ R item.2 t) ∨
      ∃ item ∈ items, item.1.isKey "<<" = true ∧ ∃ t', R item.2 t' ∧ Tree.merged key t' ≠ none := by
  rw [Tree.get] at hget
  cases hitem : Tree.getItem key trees with
  | some found =>
    rw [hitem, Option.some_or] at hget
    obtain ⟨pair, hfind, rfl⟩ := Option.map_eq_some_iff.mp hitem
    obtain ⟨item, hmem, hname, hvalue⟩ := exists_left hitems (List.mem_of_find?_eq_some hfind)
    have hstring : pair.1.string = some key := by simpa using List.find?_some hfind
    exact .inl ⟨item, hmem, isKey_of_string (hR _ _ hname) (hliteral item hmem) hstring,
      Option.some.inj hget ▸ hvalue⟩
  | none =>
    rw [hitem, Option.none_or] at hget
    right
    by_contra hnot
    have hnone : Tree.inherited key trees = none := by
      refine Tree.inherited_eq_none_of_merged fun pair hpair hmerge => ?_
      obtain ⟨item, hmem, hname, hvalue⟩ := exists_left hitems hpair
      by_contra hmerged
      exact hnot ⟨item, hmem, isKey_of_string (hR _ _ hname) (hliteral item hmem) hmerge,
        pair.2, hvalue, hmerged⟩
    rw [hnone] at hget
    cases hget

/-- In a mapping without `<<`, an entry that is read is a literal one. -/
theorem exists_entry_of_forall₂ {R : Yaml → Tree → Prop} {items : List (Yaml × Yaml)}
    {trees : List (Tree × Tree)} {t : Tree} {key : String}
    (hR : ∀ node tree, R node tree → Resolves node tree)
    (hitems : List.Forall₂ (fun item t => R item.1 t.1 ∧ R item.2 t.2) items trees)
    (hliteral : ∀ item ∈ items, item.1.isAlias = false ∧ item.1.isKey "<<" = false)
    (hget : (Tree.map trees).get key = some t) :
    ∃ item ∈ items, item.1.isKey key = true ∧ R item.2 t := by
  rcases get_cases_of_forall₂ hR hitems (fun item hitem => (hliteral item hitem).1) hget with
    hentry | ⟨item, hitem, hmerge, -⟩
  · exact hentry
  · rw [(hliteral item hitem).2] at hmerge
    cases hmerge

/-- **Nothing is inherited** where all that is merged adds none of the keys. -/
theorem ResolvesTidy.get_eq_none {node : Yaml} {tree : Tree} {key : String}
    (h : ResolvesTidy keys named node tree)
    (hreference : node.isAlias = false) (hliteral : ∀ item ∈ node.entries, item.1.isAlias = false)
    (hmerge : ∀ item ∈ node.entries, item.1.isKey "<<" = true → item.2.addsNone keys named = true)
    (hkey : key ∈ keys) (hget : node.get key = none) : tree.get key = none := by
  cases node with
  | map anchor items =>
    obtain ⟨trees, rfl, hitems⟩ := h.map
    by_contra hsome
    obtain ⟨t, ht⟩ := Option.ne_none_iff_exists'.mp hsome
    rcases get_cases_of_forall₂ (fun _ _ => ResolvesTidy.resolves) hitems hliteral ht with
      ⟨item, hitem, hisKey, -⟩ | ⟨item, hitem, hisMerge, t', ht', hne⟩
    · rw [Yaml.isKey_eq_false_of_get hget item hitem] at hisKey
      cases hisKey
    · exact hne (ht'.addsNone (hmerge item hitem hisMerge) key hkey)
  | scalar anchor value =>
    rw [h.resolves.scalar]
    rfl
  | seq anchor items =>
    obtain ⟨trees, rfl, -⟩ := h.resolves.seq
    rfl
  | reference name => cases hreference

/-- **Literal entries.** What a node has under a key, a reader finds there. -/
theorem ResolvesTidy.get_eq_some {node value : Yaml} {tree : Tree} {key : String}
    (h : ResolvesTidy keys named node tree) (hget : node.get key = some value) :
    ∃ t, tree.get key = some t ∧ ResolvesTidy keys named value t := by
  cases node with
  | map anchor items =>
    obtain ⟨trees, rfl, hitems⟩ := h.map
    obtain ⟨trees', htrees, hnodup, -⟩ := h.resolves.map
    obtain rfl := Tree.map.inj htrees
    exact get_eq_some_of_forall₂ (fun _ _ => ResolvesTidy.resolves) hitems hnodup hget
  | scalar anchor value => cases hget
  | seq anchor items => cases hget
  | reference name => cases hget

/-- In a mapping without `<<`, an entry that is read is a literal one. -/
theorem Resolves.exists_entry {node : Yaml} {tree t : Tree} {key : String} (h : Resolves node tree)
    (hreference : node.isAlias = false) (hliteral : ∀ item ∈ node.entries, LiteralKey item)
    (hget : tree.get key = some t) :
    ∃ item ∈ node.entries, item.1.isKey key = true ∧ Resolves item.2 t := by
  cases node with
  | map anchor items =>
    obtain ⟨trees, rfl, -, hitems⟩ := h.map
    exact exists_entry_of_forall₂ (fun _ _ => id) hitems hliteral hget
  | scalar anchor value =>
    rw [h.scalar] at hget
    cases hget
  | seq anchor items =>
    obtain ⟨trees, rfl, -⟩ := h.seq
    cases hget
  | reference name => cases hreference

theorem ResolvesTidy.exists_entry {node : Yaml} {tree t : Tree} {key : String}
    (h : ResolvesTidy keys named node tree)
    (hreference : node.isAlias = false) (hliteral : ∀ item ∈ node.entries, LiteralKey item)
    (hget : tree.get key = some t) :
    ∃ item ∈ node.entries, item.1.isKey key = true ∧ ResolvesTidy keys named item.2 t := by
  cases node with
  | map anchor items =>
    obtain ⟨trees, rfl, hitems⟩ := h.map
    exact exists_entry_of_forall₂ (fun _ _ => ResolvesTidy.resolves) hitems hliteral hget
  | scalar anchor value =>
    rw [h.resolves.scalar] at hget
    cases hget
  | seq anchor items =>
    obtain ⟨trees, rfl, -⟩ := h.resolves.seq
    cases hget
  | reference name => cases hreference

end Entries

/-! ### Changes that keep a document tidy -/

/-- After the change the node is tidy and adds none of the keys, if it was and did so before. -/
structure KeepsTidy (keys named : List String) (node node' : Yaml) : Prop where
  tidy : node.tidy keys named = true → node'.tidy keys named = true
  addsNone : node.addsNone keys named = true → node'.addsNone keys named = true

namespace KeepsTidy

variable {keys named : List String}

theorem refl (node : Yaml) : KeepsTidy keys named node node := ⟨id, id⟩

theorem trans {node node' node'' : Yaml} (h : KeepsTidy keys named node node')
    (h' : KeepsTidy keys named node' node'') : KeepsTidy keys named node node'' :=
  ⟨h'.tidy ∘ h.tidy, h'.addsNone ∘ h.addsNone⟩

theorem foldl {α : Type*} {f : Yaml → α → Yaml} {xs : List α}
    (h : ∀ x ∈ xs, ∀ node, KeepsTidy keys named node (f node x)) (node : Yaml) :
    KeepsTidy keys named node (xs.foldl f node) := by
  induction xs generalizing node with
  | nil => exact .refl node
  | cons x xs ih =>
    obtain ⟨hfirst, hrest⟩ := List.forall_mem_cons.mp h
    exact (hfirst node).trans (ih hrest _)

/-- The entries of a mapping may change to others that are tidy and add nothing. -/
theorem of_entries {anchor : Option String} {items items' : List (Yaml × Yaml)}
    (htidy : (∀ item ∈ items, TidyEntry keys named item) →
      ∀ item ∈ items', TidyEntry keys named item)
    (hadds : (∀ item ∈ items, EntryAddsNone keys named item) →
      ∀ item ∈ items', EntryAddsNone keys named item) :
    KeepsTidy keys named (.map anchor items) (.map anchor items') := by
  constructor
  · intro h
    obtain ⟨hnamed, hitems⟩ := tidy_map_iff.mp h
    exact tidy_map_iff.mpr ⟨fun hname => hadds (hnamed hname), htidy hitems⟩
  · exact fun h => itemsAddNone_iff.mpr (hadds (itemsAddNone_iff.mp h))

/-- The values of a mapping may change. -/
theorem map {anchor : Option String} {items items' : List (Yaml × Yaml)}
    (h : ∀ item' ∈ items', ∃ item ∈ items, item'.1 = item.1 ∧
      KeepsTidy keys named item.2 item'.2) :
    KeepsTidy keys named (.map anchor items) (.map anchor items') := by
  refine of_entries (fun htidy item' hitem' => ?_) (fun hadds item' hitem' => ?_)
  · obtain ⟨item, hitem, heq, hkeeps⟩ := h item' hitem'
    exact ⟨heq ▸ (htidy item hitem).1, hkeeps.tidy (htidy item hitem).2⟩
  · obtain ⟨item, hitem, heq, hkeeps⟩ := h item' hitem'
    have hentry := hadds item hitem
    refine ⟨heq ▸ hentry.literal, heq ▸ hentry.other, fun hmerge => ?_⟩
    exact hkeeps.addsNone (hentry.merge (heq ▸ hmerge))

theorem seq {anchor : Option String} {items items' : List Yaml}
    (h : ∀ item' ∈ items', ∃ item ∈ items, KeepsTidy keys named item item') :
    KeepsTidy keys named (.seq anchor items) (.seq anchor items') := by
  have hadds : (∀ item ∈ items, item.addsNone keys named = true) →
      ∀ item' ∈ items', item'.addsNone keys named = true := by
    intro hitems item' hitem'
    obtain ⟨item, hitem, hkeeps⟩ := h item' hitem'
    exact hkeeps.addsNone (hitems item hitem)
  constructor
  · intro htidy
    obtain ⟨hnamed, hitems⟩ := tidy_seq_iff.mp htidy
    refine tidy_seq_iff.mpr ⟨fun hname => hadds (hnamed hname), fun item' hitem' => ?_⟩
    obtain ⟨item, hitem, hkeeps⟩ := h item' hitem'
    exact hkeeps.tidy (hitems item hitem)
  · exact fun hitems => seqAddsNone_iff.mpr (hadds (seqAddsNone_iff.mp hitems))

theorem modify {key : String} {f : Yaml → Yaml} (h : ∀ value, KeepsTidy keys named value (f value))
    (node : Yaml) : KeepsTidy keys named node (node.modify key f) := by
  cases node with
  | map anchor items =>
    refine map fun item' hitem' => ?_
    rcases Yaml.mem_modifyItem hitem' with hitem | ⟨old, hold, -, rfl⟩
    · exact ⟨item', hitem, rfl, .refl _⟩
    · exact ⟨old, hold, rfl, h old.2⟩
  | scalar anchor value => exact .refl _
  | seq anchor items => exact .refl _
  | reference name => exact .refl _

theorem delete (key : String) (node : Yaml) : KeepsTidy keys named node (node.delete key) := by
  cases node with
  | map anchor items =>
    exact map fun item' hitem' => ⟨item', List.mem_of_mem_eraseP hitem', rfl, .refl _⟩
  | scalar anchor value => exact .refl _
  | seq anchor items => exact .refl _
  | reference name => exact .refl _

theorem set {key : String} {value : Yaml} (hkey : key ∉ keys)
    (htidy : value.tidy keys named = true) (hadds : key = "<<" → value.addsNone keys named = true)
    (node : Yaml) : KeepsTidy keys named node (node.set key value) := by
  cases node with
  | map anchor items =>
    obtain ⟨items', heq⟩ := Yaml.exists_set_map anchor items key value
    have hmem : ∀ item ∈ items', item ∈ items ∨ item.1.isKey key = true ∧ item.2 = value ∧
        (item.1 = Yaml.text key ∨ ∃ old ∈ items, old.1 = item.1) := by
      intro item hitem
      exact Yaml.mem_entries_set_map heq hitem
    rw [heq]
    refine of_entries (fun hitems item hitem => ?_) (fun hitems item hitem => ?_)
    · rcases hmem item hitem with hold | ⟨-, hvalue, hname | ⟨old, hold, hname⟩⟩
      · exact hitems item hold
      · exact ⟨hname ▸ rfl, hvalue ▸ htidy⟩
      · exact ⟨hname ▸ (hitems old hold).1, hvalue ▸ htidy⟩
    · rcases hmem item hitem with hold | ⟨hisKey, hvalue, -⟩
      · exact hitems item hold
      · exact ⟨Yaml.isAlias_of_isKey hisKey, Yaml.keyText_of_isKey hisKey ▸ hkey,
          fun hmerge => hvalue ▸ hadds (Yaml.isKey_inj hisKey hmerge)⟩
  | scalar anchor value => exact .refl _
  | seq anchor items => exact .refl _
  | reference name => exact .refl _

theorem setScalar {key : String} {value : Scalar} (hkey : key ∉ keys) (node : Yaml) :
    KeepsTidy keys named node (node.setScalar key value) := by
  unfold Yaml.setScalar
  split <;> exact set hkey rfl (fun _ => rfl) node

end KeepsTidy

/-- The node is tidy, and where it is a mapping no alias names it. -/
structure TidySection (keys named : List String) (node : Yaml) : Prop where
  tidy : node.tidy keys named = true
  unnamed : node.isMap = true → ∀ name ∈ named, node.anchor ≠ some name

instance (keys named : List String) (node : Yaml) : Decidable (TidySection keys named node) :=
  decidable_of_iff (node.tidy keys named = true ∧
      (node.isMap = true → ∀ name ∈ named, node.anchor ≠ some name))
    ⟨fun h => ⟨h.1, h.2⟩, fun h => ⟨h.tidy, h.unnamed⟩⟩

namespace TidySection

variable {keys named : List String} {node : Yaml}

theorem of_entries {anchor : Option String} {items items' : List (Yaml × Yaml)}
    (h : TidySection keys named (.map anchor items))
    (hitems : ∀ item ∈ items', TidyEntry keys named item) :
    TidySection keys named (.map anchor items') := by
  refine ⟨tidy_map_iff.mpr ⟨?_, hitems⟩, h.unnamed⟩
  rintro ⟨name, hname, heq⟩
  exact absurd heq (h.unnamed rfl name hname)

theorem object {items : List (String × Yaml)}
    (h : ∀ item ∈ items, item.2.tidy keys named = true) :
    TidySection keys named (.object items) := by
  refine ⟨tidy_object h, fun _ name _ heq => ?_⟩
  cases heq

theorem modify (h : TidySection keys named node) {key : String} {f : Yaml → Yaml}
    (hf : ∀ item ∈ node.entries, item.1.isKey key = true → (f item.2).tidy keys named = true) :
    TidySection keys named (node.modify key f) := by
  cases node with
  | map anchor items =>
    refine h.of_entries fun item hitem => ?_
    have hitems := (tidy_map_iff.mp h.tidy).2
    rcases Yaml.mem_modifyItem hitem with hitem | ⟨old, hold, hkey, rfl⟩
    · exact hitems item hitem
    · exact ⟨(hitems old hold).1, hf old hold hkey⟩
  | scalar anchor value => exact h
  | seq anchor items => exact h
  | reference name => exact h

theorem delete (h : TidySection keys named node) (key : String) :
    TidySection keys named (node.delete key) := by
  cases node with
  | map anchor items =>
    exact h.of_entries fun item hitem =>
      (tidy_map_iff.mp h.tidy).2 item (List.mem_of_mem_eraseP hitem)
  | scalar anchor value => exact h
  | seq anchor items => exact h
  | reference name => exact h

theorem set (h : TidySection keys named node) {key : String} {value : Yaml}
    (hvalue : value.tidy keys named = true) : TidySection keys named (node.set key value) := by
  cases node with
  | map anchor items =>
    obtain ⟨items', heq⟩ := Yaml.exists_set_map anchor items key value
    rw [heq]
    refine h.of_entries fun item hitem => ?_
    have hitems := (tidy_map_iff.mp h.tidy).2
    rcases Yaml.mem_entries_set_map heq hitem with
      hold | ⟨-, heq, hname | ⟨old, hold, hname⟩⟩
    · exact hitems item hold
    · exact ⟨hname ▸ rfl, heq ▸ hvalue⟩
    · exact ⟨hname ▸ (hitems old hold).1, heq ▸ hvalue⟩
  | scalar anchor value => exact h
  | seq anchor items => exact h
  | reference name => exact h

theorem foldl {α : Type*} {f : Yaml → α → Yaml} {xs : List α}
    (hf : ∀ x ∈ xs, ∀ node, TidySection keys named node → TidySection keys named (f node x))
    (h : TidySection keys named node) : TidySection keys named (xs.foldl f node) := by
  induction xs generalizing node with
  | nil => exact h
  | cons x xs ih =>
    obtain ⟨hfirst, hrest⟩ := List.forall_mem_cons.mp hf
    exact ih hrest (hfirst node h)

end TidySection

end ComposeBastion.Js
