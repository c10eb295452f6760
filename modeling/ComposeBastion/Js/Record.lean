import ComposeBastion.Js.Text
import Mathlib.Data.List.Nodup

namespace ComposeBastion.Js

/-!
# JavaScript records and paths

What the services use of plain objects with string values and of `path.posix` beside
`normalize`, and the rules for functions that throw, which are in `Except`.

* `Record` — an object that is used as a map from names to strings;
* `Record.get`, `Record.lookup` — one of its own properties, or what `Object.prototype` has under
  a name that is none of them;
* `posixJoin`, `posixResolve`, `posixRelative` — on the segments of a path, with the working
  directory of the process as a parameter.
-/

/-! ### Records -/

/-- A `Record<string, string>`: its own properties, in the order of `Object.entries`. -/
structure Record where
  entries : List (String × String)
  nodup : (entries.map Prod.fst).Nodup

namespace Record

/-- The object without properties. -/
def empty : Record := ⟨[], List.nodup_nil⟩

/-- `record[key]`, among the own properties. -/
def get (record : Record) (key : String) : Option String :=
  (record.entries.find? fun entry => entry.1 = key).map Prod.snd

/-- `String(Object.prototype[key])`: a plain object has these under the names of no property of its
    own.  They are objects and functions, all of them truthy. -/
def inherited (key : String) : Option String :=
  if key = "__proto__" then some "[object Object]"
  else if key = "constructor" then some "function Object() { [native code] }"
  else if key ∈ ["__defineGetter__", "__defineSetter__", "__lookupGetter__", "__lookupSetter__",
      "hasOwnProperty", "isPrototypeOf", "propertyIsEnumerable", "toLocaleString", "toString",
      "valueOf"] then
    some ("function " ++ key ++ "() { [native code] }")
  else none

/-- `record[key]` as a template string shows it. -/
def lookup (record : Record) (key : String) : Option String := (record.get key).or (inherited key)

/-- `Object.values(record)`. -/
def values (record : Record) : List String := record.entries.map Prod.snd

theorem mem_values_of_get {record : Record} {key value : String}
    (h : record.get key = some value) : value ∈ record.values := by
  obtain ⟨entry, hfind, rfl⟩ := Option.map_eq_some_iff.mp h
  exact List.mem_map.mpr ⟨entry, List.mem_of_find?_eq_some hfind, rfl⟩

theorem lookup_of_get {record : Record} {key value : String} (h : record.get key = some value) :
    record.lookup key = some value := by
  rw [lookup, h, Option.some_or]

theorem lookup_of_get_eq_none {record : Record} {key : String} (h : record.get key = none) :
    record.lookup key = inherited key := by
  rw [lookup, h, Option.none_or]

/-- What a plain object inherits is no path of the host. -/
theorem head?_of_inherited {key value : String} (h : inherited key = some value) :
    value.toList.head? = some '[' ∨ value.toList.head? = some 'f' := by
  unfold inherited at h
  split at h
  · rw [← Option.some.inj h]
    exact .inl rfl
  · split at h
    · rw [← Option.some.inj h]
      exact .inr rfl
    · split at h
      · rw [← Option.some.inj h, String.toList_append, String.toList_append]
        exact .inr rfl
      · cases h

end Record

/-- `Boolean(value)` of a string that may be absent. -/
def truthy (value : Option String) : Bool := value.any (· ≠ "")

theorem truthy_iff {value : Option String} :
    truthy value = true ↔ ∃ s, value = some s ∧ s ≠ "" := by
  simp [truthy, Option.any_eq_true]

/-! ### Functions that throw -/

theorem bind_eq_ok {ε α β : Type} {x : Except ε α} {f : α → Except ε β} {b : β} :
    x >>= f = .ok b ↔ ∃ a, x = .ok a ∧ f a = .ok b := by
  cases x with
  | error e =>
    constructor
    · intro h
      cases h
    · rintro ⟨a, h, -⟩
      cases h
  | ok a =>
    constructor
    · intro h
      exact ⟨a, rfl, h⟩
    · rintro ⟨a', h, hf⟩
      obtain rfl := Except.ok.inj h
      exact hf

theorem ok_bind {ε α β : Type} (a : α) (f : α → Except ε β) : Except.ok a >>= f = f a := rfl

theorem forM_ok {ε α : Type} {f : α → Except ε Unit} {items : List α}
    (h : items.forM f = .ok ()) : ∀ item ∈ items, f item = .ok () := by
  induction items with
  | nil => simp
  | cons first rest ih =>
    change (f first >>= fun _ => rest.forM f) = .ok () at h
    cases hfirst : f first with
    | error e =>
      rw [hfirst] at h
      cases h
    | ok u =>
      rw [hfirst] at h
      intro item hitem
      rcases List.mem_cons.mp hitem with rfl | hitem
      · exact hfirst
      · exact ih h item hitem

/-- What every step keeps, a loop keeps. -/
theorem foldlM_ok {ε α β : Type} {P : β → Prop} {f : β → α → Except ε β} {xs : List α}
    (hf : ∀ b, P b → ∀ x ∈ xs, ∀ b', f b x = .ok b' → P b') {b b' : β} (hb : P b)
    (h : xs.foldlM f b = .ok b') : P b' := by
  induction xs generalizing b with
  | nil =>
    obtain rfl : b = b' := Except.ok.inj h
    exact hb
  | cons x xs ih =>
    rw [List.foldlM_cons] at h
    obtain ⟨middle, hmiddle, hrest⟩ := bind_eq_ok.mp h
    exact ih (fun b hb y hy => hf b hb y (List.mem_cons_of_mem x hy))
      (hf b hb x List.mem_cons_self middle hmiddle) hrest

/-! ### Strings -/

/-- `s.length`: code units. -/
def codeUnits (s : String) : ℕ :=
  s.toList.foldl (fun n c => if c.toNat < 0x10000 then n + 1 else n + 2) 0

/-- `s.replace(/\/+$/, "")`. -/
def stripTrailingSlashes (s : String) : String :=
  String.ofList (s.toList.reverse.dropWhile (· = '/')).reverse

/-- `s.replace(/\\/g, "/")`. -/
def forwardSlashes (s : String) : String :=
  String.ofList (s.toList.map fun c => if c = '\\' then '/' else c)

/-- `s.slice(n)` for a prefix of `n` ASCII characters. -/
def dropChars (n : ℕ) (s : String) : String := String.ofList (s.toList.drop n)

/-- `s.replace(old, new)` for a string `old`: its first occurrence. -/
def replaceFirstChars (old new : List Char) : List Char → List Char
  | [] => if old = [] then new else []
  | c :: cs =>
    if old.isPrefixOf (c :: cs) then new ++ (c :: cs).drop old.length
    else c :: replaceFirstChars old new cs

/-! ### Paths -/

/-- `path.posix.isAbsolute(path)`. -/
def isAbsolute (path : String) : Bool := startsWith path "/"

/-- `path.posix.join(a, b)`. -/
def posixJoin (a b : String) : String :=
  posixNormalize (if a = "" then b else if b = "" then a else a ++ "/" ++ b)

/-- The segments of `path.posix.resolve(path)`, where `cwd` is the working directory. -/
def posixResolve (cwd path : String) : List (List Char) :=
  let absolute := if isAbsolute path then path else cwd ++ "/" ++ path
  ((absolute.toList.splitOn '/').foldl (normalizeSegment false) []).reverse

/-- The path from one list of segments to another. -/
def relativeSegments : List (List Char) → List (List Char) → List (List Char)
  | a :: fromRest, b :: toRest =>
    if a = b then relativeSegments fromRest toRest
    else (a :: fromRest).map (fun _ => ['.', '.']) ++ b :: toRest
  | fromRest, toRest => fromRest.map (fun _ => ['.', '.']) ++ toRest

/-- `path.posix.relative(from, to)`. -/
def posixRelative (cwd fromPath toPath : String) : String :=
  String.ofList (['/'].intercalate
    (relativeSegments (posixResolve cwd fromPath) (posixResolve cwd toPath)))

end ComposeBastion.Js
