import ComposeBastion.Js.Text
import Mathlib.Data.List.Forall2
import Mathlib.Data.List.Nodup

namespace ComposeBastion.Js

/-!
# YAML documents

The document nodes of the `yaml` package, with the operations on mappings that the services call,
and the value a reader makes of a document: aliases stand for the node with their anchor, and the
key `<<` adds the entries of other mappings.

* `Yaml` — nodes with anchors, and aliases;
* `Yaml.get`, `Yaml.set`, `Yaml.delete` — by the literal entries of a mapping;
* `Yaml.print` — what comes out of `String(document)`, which is parsed again;
* `Tree`, `Yaml.resolve` — the document without aliases;
* `Tree.get` — an entry of a mapping, its own or one it inherits through `<<`;
* `Resolves.get_eq_some` — an entry of the node is that of its tree.
-/

/-! ### Nodes -/

/-- The value of a scalar node; numbers are kept as they print.  A function or an object, with the
    text that `String` makes of it, is no value of a document, but may be put into one. -/
inductive Scalar where
  | null
  | bool (value : Bool)
  | number (text : String)
  | string (text : String)
  | builtin (text : String)
  deriving DecidableEq, Repr

/-- `String(value ?? "")`. -/
def Scalar.text : Scalar → String
  | .null => ""
  | .bool value => if value then "true" else "false"
  | .number text => text
  | .string text => text
  | .builtin text => text

/-- A node of a document. -/
inductive Yaml where
  | scalar (anchor : Option String) (value : Scalar)
  | map (anchor : Option String) (items : List (Yaml × Yaml))
  | seq (anchor : Option String) (items : List Yaml)
  | reference (name : String)

namespace Yaml

/-- A plain text. -/
def text (value : String) : Yaml := .scalar none (.string value)

/-- A mapping of plain texts to nodes. -/
def object (items : List (String × Yaml)) : Yaml :=
  .map none (items.map fun item => (text item.1, item.2))

/-- The key is a scalar node with this string. -/
def isKey (key : String) : Yaml → Bool
  | .scalar _ (.string value) => value = key
  | _ => false

/-- The text of a scalar key. -/
def keyText : Yaml → String
  | .scalar _ value => value.text
  | _ => ""

/-- The first entry of a mapping with this key. -/
def getItem (key : String) (items : List (Yaml × Yaml)) : Option Yaml :=
  (items.find? fun item => item.1.isKey key).map Prod.snd

/-- `node.get(key, true)`. -/
def get (key : String) : Yaml → Option Yaml
  | .map _ items => getItem key items
  | _ => none

/-- The entries of a mapping with `f` applied to the value of the first that has this key. -/
def modifyItem (key : String) (f : Yaml → Yaml) : List (Yaml × Yaml) → List (Yaml × Yaml)
  | [] => []
  | item :: rest =>
    if item.1.isKey key then (item.1, f item.2) :: rest else item :: modifyItem key f rest

/-- `node.get(key, true)` changed in place. -/
def modify (key : String) (f : Yaml → Yaml) : Yaml → Yaml
  | .map anchor items => .map anchor (modifyItem key f items)
  | node => node

/-- `node.set(key, value)`. -/
def set (node : Yaml) (key : String) (value : Yaml) : Yaml :=
  match node with
  | .map anchor items =>
    if (getItem key items).isSome then .map anchor (modifyItem key (fun _ => value) items)
    else .map anchor (items ++ [(text key, value)])
  | node => node

/-- `node.set(key, value)` for a scalar value, which a scalar node takes over. -/
def setScalar (key : String) (value : Scalar) (node : Yaml) : Yaml :=
  match node.get key with
  | some (.scalar anchor _) => node.set key (.scalar anchor value)
  | _ => node.set key (.scalar none value)

/-- `node.delete(key)`. -/
def delete (key : String) : Yaml → Yaml
  | .map anchor items => .map anchor (items.eraseP fun item => item.1.isKey key)
  | node => node

/-- `isMap(node)`. -/
def isMap : Yaml → Bool
  | .map .. => true
  | _ => false

/-- `isAlias(node)`. -/
def isAlias : Yaml → Bool
  | .reference _ => true
  | _ => false

mutual

/-- The text of the first function or object that stands in place of a value. -/
def builtin : Yaml → Option String
  | .scalar _ (.builtin text) => some text
  | .scalar _ _ => none
  | .map _ items => builtinOfItems items
  | .seq _ items => builtinOfSeq items
  | .reference _ => none

def builtinOfItems : List (Yaml × Yaml) → Option String
  | [] => none
  | (key, value) :: rest => ((builtin key).or (builtin value)).or (builtinOfItems rest)

def builtinOfSeq : List Yaml → Option String
  | [] => none
  | item :: rest => (builtin item).or (builtinOfSeq rest)

end

/-- `String(document)`: there is no tag for a function or an object in place of a value. -/
def print (document : Yaml) : Except String Yaml :=
  match document.builtin with
  | none => .ok document
  | some text =>
    .error ("Tag not resolved for " ++ (if text = "[object Object]" then "Object" else "Function")
      ++ " value")

theorem print_eq_ok {document printed : Yaml} (h : document.print = .ok printed) :
    printed = document := by
  unfold print at h
  split at h
  · exact (Except.ok.inj h).symm
  · cases h

end Yaml

/-! ### Reading a document -/

/-- A document without aliases. -/
inductive Tree where
  | scalar (value : Scalar)
  | map (items : List (Tree × Tree))
  | seq (items : List Tree)

namespace Tree

/-- The string of a scalar. -/
def string : Tree → Option String
  | .scalar (.string value) => some value
  | _ => none

/-- The text of a scalar. -/
def text : Tree → Option String
  | .scalar value => some value.text
  | _ => none

/-- The elements of a sequence that may be missing. -/
def items : Option Tree → List Tree
  | some (.seq items) => items
  | _ => []

/-- The strings among the keys of a mapping. -/
def keys (items : List (Tree × Tree)) : List String := items.filterMap fun item => item.1.string

/-- The entry of a mapping with this key. -/
def getItem (key : String) (items : List (Tree × Tree)) : Option Tree :=
  (items.find? fun item => item.1.string = some key).map Prod.snd

mutual

/-- An entry of a mapping: its own, or else the first that it inherits. -/
def get (key : String) : Tree → Option Tree
  | .map items => (getItem key items).or (inherited key items)
  | .scalar _ => none
  | .seq _ => none

/-- An entry that a mapping inherits through its keys `<<`. -/
def inherited (key : String) : List (Tree × Tree) → Option Tree
  | [] => none
  | (name, value) :: rest =>
    (if name.string = some "<<" then merged key value else none).or (inherited key rest)

/-- An entry of what stands under `<<`: a mapping, or a sequence of them. -/
def merged (key : String) : Tree → Option Tree
  | .map items => (getItem key items).or (inherited key items)
  | .seq items => firstOf key items
  | .scalar _ => none

/-- The first of the mappings that has the entry decides. -/
def firstOf (key : String) : List Tree → Option Tree
  | [] => none
  | tree :: rest => (get key tree).or (firstOf key rest)

end

end Tree

/-- The anchors met so far, the last one first. -/
abbrev Anchors := List (String × Tree)

/-- The tree of a node, which its anchor names from now on. -/
def Anchors.note (anchors : Anchors) (anchor : Option String) (tree : Tree) : Anchors × Tree :=
  match anchor with
  | none => (anchors, tree)
  | some name => ((name, tree) :: anchors, tree)

mutual

/-- The tree of a node; there is none where an alias has no node before it, or a mapping has one key
    twice. -/
def Yaml.resolve (anchors : Anchors) : Yaml → Option (Anchors × Tree)
  | .scalar anchor value => some (anchors.note anchor (.scalar value))
  | .map anchor items =>
    match Yaml.resolveItems anchors items with
    | none => none
    | some (anchors, items) =>
      if (Tree.keys items).Nodup then some (anchors.note anchor (.map items)) else none
  | .seq anchor items =>
    match Yaml.resolveSeq anchors items with
    | none => none
    | some (anchors, items) => some (anchors.note anchor (.seq items))
  | .reference name => (anchors.lookup name).map fun tree => (anchors, tree)

/-- The entries of a mapping, in the order of the document. -/
def Yaml.resolveItems (anchors : Anchors) :
    List (Yaml × Yaml) → Option (Anchors × List (Tree × Tree))
  | [] => some (anchors, [])
  | (key, value) :: rest =>
    match Yaml.resolve anchors key with
    | none => none
    | some (anchors, key) =>
      match Yaml.resolve anchors value with
      | none => none
      | some (anchors, value) =>
        (Yaml.resolveItems anchors rest).map fun r => (r.1, (key, value) :: r.2)

/-- The elements of a sequence, in the order of the document. -/
def Yaml.resolveSeq (anchors : Anchors) : List Yaml → Option (Anchors × List Tree)
  | [] => some (anchors, [])
  | item :: rest =>
    match Yaml.resolve anchors item with
    | none => none
    | some (anchors, item) => (Yaml.resolveSeq anchors rest).map fun r => (r.1, item :: r.2)

end

/-- The node stands for the tree, under the anchors before it. -/
def Resolves (node : Yaml) (tree : Tree) : Prop :=
  ∃ anchors anchors', node.resolve anchors = some (anchors', tree)

/-- What a reader of the whole document sees. -/
def Yaml.read (document : Yaml) : Option Tree := (document.resolve []).map Prod.snd

/-! ### Nodes and their trees -/

section Forall₂

variable {α β : Type*} {R : α → β → Prop} {as : List α} {bs : List β}

theorem exists_right (h : List.Forall₂ R as bs) {a : α} (ha : a ∈ as) : ∃ b ∈ bs, R a b := by
  induction h with
  | nil => cases ha
  | cons hab _ ih =>
    rcases List.mem_cons.mp ha with rfl | ha
    · exact ⟨_, List.mem_cons_self, hab⟩
    · obtain ⟨b, hb, hR⟩ := ih ha
      exact ⟨b, List.mem_cons_of_mem _ hb, hR⟩

theorem exists_left (h : List.Forall₂ R as bs) {b : β} (hb : b ∈ bs) : ∃ a ∈ as, R a b := by
  obtain ⟨a, ha, hR⟩ := exists_right h.flip hb
  exact ⟨a, ha, hR⟩

end Forall₂

theorem snd_note {anchors : Anchors} {anchor : Option String} {tree : Tree} :
    (anchors.note anchor tree).2 = tree := by
  cases anchor <;> rfl

theorem Resolves.scalar {anchor : Option String} {value : Scalar} {tree : Tree}
    (h : Resolves (.scalar anchor value) tree) : tree = .scalar value := by
  obtain ⟨anchors, anchors', h⟩ := h
  rw [Yaml.resolve, Option.some.injEq] at h
  have hsnd := congrArg Prod.snd h
  rw [snd_note] at hsnd
  exact hsnd.symm

/-- The entries of a mapping are resolved one by one. -/
theorem resolveItems_forall₂ {items : List (Yaml × Yaml)} {anchors anchors' : Anchors}
    {trees : List (Tree × Tree)} (h : Yaml.resolveItems anchors items = some (anchors', trees)) :
    List.Forall₂ (fun item tree => Resolves item.1 tree.1 ∧ Resolves item.2 tree.2) items trees := by
  induction items generalizing anchors trees with
  | nil =>
    obtain ⟨-, rfl⟩ := Prod.mk.inj (Option.some.inj h)
    exact .nil
  | cons item rest ih =>
    rw [Yaml.resolveItems] at h
    split at h
    · cases h
    next keyAnchors key hkey =>
      split at h
      · cases h
      next valueAnchors value hvalue =>
        obtain ⟨⟨last, trees⟩, hr, hcons⟩ := Option.map_eq_some_iff.mp h
        obtain ⟨rfl, rfl⟩ := Prod.mk.inj hcons
        exact .cons ⟨⟨_, _, hkey⟩, ⟨_, _, hvalue⟩⟩ (ih hr)

theorem resolveSeq_forall₂ {items : List Yaml} {anchors anchors' : Anchors} {trees : List Tree}
    (h : Yaml.resolveSeq anchors items = some (anchors', trees)) :
    List.Forall₂ Resolves items trees := by
  induction items generalizing anchors trees with
  | nil =>
    obtain ⟨-, rfl⟩ := Prod.mk.inj (Option.some.inj h)
    exact .nil
  | cons item rest ih =>
    rw [Yaml.resolveSeq] at h
    split at h
    · cases h
    next itemAnchors tree hitem =>
      obtain ⟨⟨last, trees⟩, hr, hcons⟩ := Option.map_eq_some_iff.mp h
      obtain ⟨rfl, rfl⟩ := Prod.mk.inj hcons
      exact .cons ⟨_, _, hitem⟩ (ih hr)

theorem Resolves.map {anchor : Option String} {items : List (Yaml × Yaml)} {tree : Tree}
    (h : Resolves (.map anchor items) tree) :
    ∃ trees, tree = .map trees ∧ (Tree.keys trees).Nodup ∧
      List.Forall₂ (fun item t => Resolves item.1 t.1 ∧ Resolves item.2 t.2) items trees := by
  obtain ⟨anchors, anchors', h⟩ := h
  rw [Yaml.resolve] at h
  split at h
  · cases h
  next inner trees hitems =>
    split at h
    next hnodup =>
      refine ⟨trees, ?_, hnodup, resolveItems_forall₂ hitems⟩
      have hsnd := congrArg Prod.snd (Option.some.inj h)
      rw [snd_note] at hsnd
      exact hsnd.symm
    · cases h

theorem Resolves.seq {anchor : Option String} {items : List Yaml} {tree : Tree}
    (h : Resolves (.seq anchor items) tree) :
    ∃ trees, tree = .seq trees ∧ List.Forall₂ Resolves items trees := by
  obtain ⟨anchors, anchors', h⟩ := h
  rw [Yaml.resolve] at h
  split at h
  · cases h
  next inner trees hitems =>
    refine ⟨trees, ?_, resolveSeq_forall₂ hitems⟩
    have hsnd := congrArg Prod.snd (Option.some.inj h)
    rw [snd_note] at hsnd
    exact hsnd.symm

/-- A key that is in a mapping once is found there. -/
theorem Tree.getItem_eq_some {items : List (Tree × Tree)} {key : String} {item : Tree × Tree}
    (hnodup : (Tree.keys items).Nodup) (hmem : item ∈ items) (hkey : item.1.string = some key) :
    Tree.getItem key items = some item.2 := by
  induction items with
  | nil => cases hmem
  | cons first rest ih =>
    unfold Tree.getItem
    by_cases hfirst : first.1.string = some key
    · rcases List.mem_cons.mp hmem with rfl | hrest
      · simp [hfirst]
      · -- the key would be there twice
        have hin : key ∈ Tree.keys rest := List.mem_filterMap.mpr ⟨item, hrest, hkey⟩
        rw [Tree.keys, List.filterMap_cons, hfirst] at hnodup
        exact absurd hin (List.nodup_cons.mp hnodup).1
    · rcases List.mem_cons.mp hmem with rfl | hrest
      · exact absurd hkey hfirst
      · have hnodup' : (Tree.keys rest).Nodup := by
          unfold Tree.keys at hnodup ⊢
          rw [List.filterMap_cons] at hnodup
          split at hnodup
          · exact hnodup
          · exact (List.nodup_cons.mp hnodup).2
        rw [List.find?_cons_of_neg (by simpa using hfirst)]
        exact ih hnodup' hrest

theorem Resolves.isKey {node : Yaml} {tree : Tree} {key : String} (h : Resolves node tree)
    (hkey : node.isKey key = true) : tree.string = some key := by
  unfold Yaml.isKey at hkey
  split at hkey
  · rw [h.scalar]
    simpa [Tree.string] using hkey
  · cases hkey

section Entries

variable {R : Yaml → Tree → Prop} {items : List (Yaml × Yaml)} {trees : List (Tree × Tree)}

/-- What is among the entries under a key, a reader finds there. -/
theorem get_eq_some_of_forall₂ (hR : ∀ node tree, R node tree → Resolves node tree)
    (hitems : List.Forall₂ (fun item t => R item.1 t.1 ∧ R item.2 t.2) items trees)
    (hnodup : (Tree.keys trees).Nodup) {key : String} {value : Yaml}
    (hget : Yaml.getItem key items = some value) :
    ∃ t, (Tree.map trees).get key = some t ∧ R value t := by
  obtain ⟨item, hfind, rfl⟩ := Option.map_eq_some_iff.mp hget
  obtain ⟨t, ht, hkey, hvalue⟩ := exists_right hitems (List.mem_of_find?_eq_some hfind)
  have hisKey : item.1.isKey key = true := by simpa using List.find?_some hfind
  refine ⟨t.2, ?_, hvalue⟩
  rw [Tree.get, Tree.getItem_eq_some hnodup ht ((hR _ _ hkey).isKey hisKey), Option.some_or]

end Entries

/-- **Literal entries.** What a node has under a key, a reader finds there. -/
theorem Resolves.get_eq_some {node value : Yaml} {tree : Tree} {key : String} (h : Resolves node tree)
    (hget : node.get key = some value) : ∃ t, tree.get key = some t ∧ Resolves value t := by
  cases node with
  | map anchor items =>
    obtain ⟨trees, rfl, hnodup, hitems⟩ := h.map
    exact get_eq_some_of_forall₂ (fun _ _ => id) hitems hnodup hget
  | scalar anchor value => cases hget
  | seq anchor items => cases hget
  | reference name => cases hget

/-- A scalar that is a string has it as its text. -/
theorem Tree.text_of_string {value : Scalar} {name : String}
    (h : (Tree.scalar value).string = some name) : value.text = name := by
  cases value with
  | string text => exact Option.some.inj h
  | null => cases h
  | bool value => cases h
  | number text => cases h
  | builtin text => cases h

/-- A mapping without the key `<<` inherits nothing. -/
theorem Tree.inherited_eq_none {items : List (Tree × Tree)} {key : String}
    (h : ∀ item ∈ items, item.1.string ≠ some "<<") : Tree.inherited key items = none := by
  induction items with
  | nil => rfl
  | cons item rest ih =>
    obtain ⟨name, value⟩ := item
    rw [Tree.inherited, if_neg (h (name, value) List.mem_cons_self), Option.none_or]
    exact ih fun item hitem => h item (List.mem_cons_of_mem _ hitem)

end ComposeBastion.Js
