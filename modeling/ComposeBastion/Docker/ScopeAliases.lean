import ComposeBastion.Docker.HostSpelling

namespace ComposeBastion

/-!
# Canonical scopes and aliases

An object of the inventory has a name and an id, and an action may name it by either.
`canonicalizeDockerMutationScope` adds to a scope the id and the name of every row that
carries one of its values, so that two spellings of one object meet.  A value that no row
carries, an abbreviated id for one, is looked up by nothing: for the types in
`existingReferenceTypes` the scope is widened to every object of the kind, for the types that
may create the object it is left as it is.

* `mem_canonicalize_alias` — what a target adds survives to the end of the canonicalisation;
* `canonicalize_aliasSafe` — the four guarantees of the canonical scope, for every inventory.
-/

section

variable [Js.CaseMapping]

/-- A scope as `dockerMutationScope` builds it: normalised targets, every host listed. -/
structure RawScope (scope : DockerMutationScope) : Prop where
  wellFormed : WellFormedTargets scope.targets
  host_listed : ∀ t ∈ scope.targets, t.hostId ∈ scope.hostIds

theorem rawScope_of_dockerMutationScope {hostId : Id} {payload : ActionPayload}
    {scope : DockerMutationScope} (h : dockerMutationScope hostId payload = some scope) :
    RawScope scope :=
  ⟨(dockerMutationScope_spec h).wellFormed, (dockerMutationScope_spec h).host_listed⟩

omit [Js.CaseMapping] in
/-- The row is an object of the target's kind on the target's host. -/
def ResourceSnapshot.sharesDomain (row : ResourceSnapshot) (t : DockerMutationTarget) : Prop :=
  row.hostId = uuidText t.hostId ∧ row.kind = t.kind

omit [Js.CaseMapping] in
/-- The row carries the value of the target as its name or id. -/
def ResourceSnapshot.matchesTarget (row : ResourceSnapshot) (t : DockerMutationTarget) : Prop :=
  row.sharesDomain t ∧ (row.externalId = t.value ∨ row.name = t.value)

omit [Js.CaseMapping] in
/-- The target names one object that no row of the inventory carries. -/
def Unresolved (inventory : Inventory) (t : DockerMutationTarget) : Prop :=
  t.kind ∈ snapshotKinds ∧ t.value ≠ "*" ∧ ∀ row ∈ inventory.snapshots, ¬ row.matchesTarget t

/-- **What canonicalisation guarantees** for one inventory.

* `covers` — whatever conflicts with the scope conflicts with the canonical scope;
* `aliases` — two scopes that name one row, by its name and by its id, conflict;
* `abbreviated` — and so do a scope that names the row and a scope of an action on existing
  objects that names it by a text no row carries, such as the first digits of its id;
* `widened` — a value of an action on existing objects that no row carries conflicts with
  every target of its kind on its host;
* `ambiguous` — a value that several rows carry covers each of them, by id and by name. -/
structure AliasSafe (inventory : Inventory) : Prop where
  covers : ∀ scope other, dockerMutationScopesConflict scope other = true →
    dockerMutationScopesConflict (canonicalizeDockerMutationScope inventory scope) other = true
  aliases : ∀ l r, RawScope l → RawScope r → ∀ row ∈ inventory.snapshots,
    ∀ t ∈ l.targets, ∀ u ∈ r.targets, t.kind ∈ snapshotKinds → t.hostId = u.hostId →
      row.sharesDomain t → row.sharesDomain u → t.value = row.name → u.value = row.externalId →
      dockerMutationScopesConflict (canonicalizeDockerMutationScope inventory l)
        (canonicalizeDockerMutationScope inventory r) = true
  abbreviated : ∀ l r, RawScope r → r.type ∈ existingReferenceTypes → ∀ row ∈ inventory.snapshots,
    ∀ t ∈ l.targets, ∀ u ∈ r.targets, t.hostId = u.hostId → row.matchesTarget t →
      row.sharesDomain u → Unresolved inventory u →
      dockerMutationScopesConflict (canonicalizeDockerMutationScope inventory l)
        (canonicalizeDockerMutationScope inventory r) = true
  widened : ∀ scope, RawScope scope → scope.type ∈ existingReferenceTypes →
    ∀ t ∈ scope.targets, Unresolved inventory t →
      ∀ other, (∃ u ∈ other.targets, u.hostId = t.hostId ∧ u.kind = t.kind) →
        dockerMutationScopesConflict (canonicalizeDockerMutationScope inventory scope) other = true
  ambiguous : ∀ scope, RawScope scope → ∀ t ∈ scope.targets, t.kind ∈ snapshotKinds →
    t.value ≠ "*" → ∀ row ∈ inventory.snapshots, row.matchesTarget t →
      ∀ value, value = row.externalId ∨ value = row.name → Js.trim value ≠ "" →
        ⟨t.hostId, t.kind, Js.trim value⟩
          ∈ (canonicalizeDockerMutationScope inventory scope).targets

/-! ### Following one target through the canonicalisation -/

omit [Js.CaseMapping] in
/-- What one round of an extending loop adds is there at the end. -/
theorem mem_foldl_of_round {β : Type*} {f : List DockerMutationTarget → β → List DockerMutationTarget}
    (hext : ∀ ts b, ∀ t ∈ ts, t ∈ f ts b) {ts : List DockerMutationTarget} {b : β} {bs : List β}
    (hb : b ∈ bs) {x : DockerMutationTarget}
    (hround : ∀ ts', (∀ t ∈ ts, t ∈ ts') → x ∈ f ts' b) : x ∈ bs.foldl f ts := by
  obtain ⟨before, after, rfl⟩ := List.append_of_mem hb
  rw [List.foldl_append, List.foldl_cons]
  have hbefore : ∀ t ∈ ts, t ∈ before.foldl f ts := fun t ht =>
    List.foldlRecOn before f ht fun ts' hts' b' _ => hext ts' b' t hts'
  exact List.foldlRecOn after f (hround _ hbefore) fun ts' hts' b' _ => hext ts' b' x hts'

section

variable {inventory : Inventory}

/-- What the value of a target adds to its scope is in the canonical scope.  `values` are the
    values of its kind when its turn comes: at least its own. -/
theorem mem_canonicalize_alias {scope : DockerMutationScope} (hraw : RawScope scope)
    {t : DockerMutationTarget} (ht : t ∈ scope.targets) (hkind : t.kind ∈ snapshotKinds)
    (hstar : t.value ≠ "*") {value : String}
    (halias : ∀ values, t.value ∈ values →
      (t.kind, value) ∈ aliasTargets inventory scope.type t.hostId t.kind values)
    (hvalue : normalizedTarget t.kind value ≠ "") :
    ⟨t.hostId, t.kind, normalizedTarget t.kind value⟩
      ∈ (canonicalizeDockerMutationScope inventory scope).targets := by
  have hhost : t.hostId ≠ "" := (hraw.wellFormed t ht).1.1
  apply mem_foldl_of_round
    (fun ts hostId => (extendsOn_canonicalizeHost inventory scope.type hostId ts).mem)
    (hraw.host_listed t ht)
  intro ts hts
  -- the projects come after the kinds and only add to them
  apply (ExtendsOn.foldl (fun ts' project => extendsOn_addTargets ts' t.hostId
    (projectTargets inventory scope.type t.hostId project)) _).mem
  apply mem_foldl_of_round
    (fun ts' kind => (extendsOn_canonicalizeKind inventory scope.type t.hostId ts' kind).mem) hkind
  intro ts' hts'
  have hnamed : t.value ∈ namedValues ts' t.hostId t.kind := by
    simp only [namedValues, targetValues, List.mem_filter, List.mem_map, decide_eq_true_eq]
    exact ⟨⟨t, ⟨hts' t (hts t ht), rfl, rfl⟩, rfl⟩, hstar⟩
  rw [canonicalizeKind_eq, mem_addTargets_iff]
  exact Or.inr ⟨hhost, rfl, (t.kind, value), halias _ hnamed, hvalue, Or.inl ⟨rfl, rfl⟩⟩

/-- A row that carries the value of a target adds its id and its name. -/
theorem mem_aliasTargets_of_matches {type : JobType} {t : DockerMutationTarget}
    {row : ResourceSnapshot} (hrow : row ∈ inventory.snapshots) (hmatch : row.matchesTarget t)
    {value : String} (hvalue : value = row.externalId ∨ value = row.name) {values : List String}
    (hmem : t.value ∈ values) :
    (t.kind, value) ∈ aliasTargets inventory type t.hostId t.kind values := by
  obtain ⟨⟨hhost, hkind⟩, hcarries⟩ := hmatch
  have hrows : row ∈ aliasRows inventory t.hostId t.kind values := by
    simp only [aliasRows, List.mem_filter, decide_eq_true_eq]
    refine ⟨hrow, hhost, hkind, ?_⟩
    rcases hcarries with hid | hname
    · exact Or.inl (hid ▸ hmem)
    · exact Or.inr (hname ▸ hmem)
  refine List.mem_append_left _ (List.mem_flatMap.mpr ⟨row, hrows, ?_⟩)
  rcases hvalue with rfl | rfl
  · simp [snapshotTargets]
  · simp [snapshotTargets]

/-- A value that no row carries adds `*`, for an action on existing objects. -/
theorem star_mem_aliasTargets {type : JobType} (htype : type ∈ existingReferenceTypes)
    {t : DockerMutationTarget} (hnone : Unresolved inventory t) {values : List String}
    (hmem : t.value ∈ values) :
    (t.kind, "*") ∈ aliasTargets inventory type t.hostId t.kind values := by
  have hunknown : ∃ value ∈ values, ∀ row ∈ aliasRows inventory t.hostId t.kind values,
      value ≠ row.externalId ∧ value ≠ row.name := by
    refine ⟨t.value, hmem, fun row hrow => ?_⟩
    simp only [aliasRows, List.mem_filter, decide_eq_true_eq] at hrow
    obtain ⟨hrow, hhost, hkind, -⟩ := hrow
    have hnot := hnone.2.2 row hrow
    constructor
    · intro heq
      exact hnot ⟨⟨hhost, hkind⟩, Or.inl heq.symm⟩
    · intro heq
      exact hnot ⟨⟨hhost, hkind⟩, Or.inr heq.symm⟩
  apply List.mem_append_right
  rw [if_pos ⟨htype, hunknown⟩]
  exact List.mem_singleton.mpr rfl

omit [Js.CaseMapping] in
/-- The kinds with snapshots are normalised by trimming. -/
theorem normalizedTarget_of_snapshotKind [Js.CaseMapping] {kind : MutationTargetKind}
    (h : kind ∈ snapshotKinds) (value : String) : normalizedTarget kind value = Js.trim value := by
  simp only [snapshotKinds, List.mem_cons, List.not_mem_nil, or_false] at h
  rcases h with rfl | rfl | rfl | rfl <;> rfl

theorem star_mem_canonicalize {scope : DockerMutationScope} (hraw : RawScope scope)
    (htype : scope.type ∈ existingReferenceTypes) {t : DockerMutationTarget}
    (ht : t ∈ scope.targets) (hnone : Unresolved inventory t) :
    ⟨t.hostId, t.kind, "*"⟩ ∈ (canonicalizeDockerMutationScope inventory scope).targets := by
  have hstar : normalizedTarget t.kind "*" = "*" := by
    rw [normalizedTarget_of_snapshotKind hnone.1]
    decide
  have hmem := mem_canonicalize_alias hraw ht hnone.1 hnone.2.1
    (fun values hmem => star_mem_aliasTargets htype hnone hmem) (by rw [hstar]; decide)
  rwa [hstar] at hmem

omit [Js.CaseMapping] in
theorem targetsConflict_of_eq {l r : DockerMutationTarget} (hhost : l.hostId = r.hostId)
    (hkind : l.kind = r.kind) (hvalue : l.value = "*" ∨ l.value = r.value) :
    targetsConflict l r = true := by
  have hsame : ¬ (l.hostId ≠ r.hostId ∨ l.kind ≠ r.kind) := by
    push Not
    exact ⟨hhost, hkind⟩
  rw [targetsConflict, if_neg hsame]
  split
  · rfl
  · rename_i hnostar
    have heq : l.value = r.value := hvalue.resolve_left fun h => hnostar (Or.inl h)
    split
    · simp [pathsOverlap, heq]
    · simp [heq]

omit [Js.CaseMapping] in
/-- Conflict is monotone in both scopes. -/
theorem dockerMutationScopesConflict_mono {l l' r r' : DockerMutationScope}
    (hl : ∀ t ∈ l.targets, t ∈ l'.targets) (hr : ∀ t ∈ r.targets, t ∈ r'.targets)
    (h : dockerMutationScopesConflict l r = true) : dockerMutationScopesConflict l' r' = true := by
  obtain ⟨t, ht, u, hu, htu⟩ := dockerMutationScopesConflict_iff.mp h
  exact dockerMutationScopesConflict_iff.mpr ⟨t, hl t ht, u, hr u hu, htu⟩

theorem canonicalize_widened {scope : DockerMutationScope} (hraw : RawScope scope)
    (htype : scope.type ∈ existingReferenceTypes) {t : DockerMutationTarget}
    (ht : t ∈ scope.targets) (hnone : Unresolved inventory t) {other : DockerMutationScope}
    {u : DockerMutationTarget} (hu : u ∈ other.targets) (hhost : u.hostId = t.hostId)
    (hkind : u.kind = t.kind) :
    dockerMutationScopesConflict (canonicalizeDockerMutationScope inventory scope) other = true :=
  dockerMutationScopesConflict_iff.mpr ⟨_, star_mem_canonicalize hraw htype ht hnone, u, hu,
    targetsConflict_of_eq hhost.symm hkind.symm (Or.inl rfl)⟩

theorem canonicalize_aliasSafe (inventory : Inventory) : AliasSafe inventory where
  covers scope other h :=
    dockerMutationScopesConflict_mono (fun _ ht => mem_canonicalize_of_mem inventory ht)
      (fun _ ht => ht) h
  aliases l r hl hr row hrow t ht u hu hkind hhost hdomain hdomain' hname hid := by
    -- the id is the value of a normalised target, so trimming does not change it
    have hkindu : u.kind = t.kind := hdomain'.2.symm.trans hdomain.2
    have htrim : Js.trim row.externalId = row.externalId := by
      have hnormal := (hr.wellFormed u hu).1
      have hnopath : u.kind ≠ .hostPath := by
        rintro hpath
        rw [← hkindu, hpath] at hkind
        exact absurd hkind (by decide)
      rw [← hid, ← normalizedTarget_of_snapshotKind (hkindu ▸ hkind)]
      exact hnormal.2.2 hnopath
    have hblank : Js.trim row.externalId ≠ "" := by
      rw [htrim, ← hid]
      exact (hr.wellFormed u hu).1.2.1
    refine dockerMutationScopesConflict_iff.mpr ?_
    by_cases hstar : t.value = "*"
    · exact ⟨t, mem_canonicalize_of_mem inventory ht, u, mem_canonicalize_of_mem inventory hu,
        targetsConflict_of_eq hhost hkindu.symm (Or.inl hstar)⟩
    · have hmem := mem_canonicalize_alias hl ht hkind hstar
        (fun values hmem => mem_aliasTargets_of_matches hrow ⟨hdomain, Or.inr hname.symm⟩
          (Or.inl rfl) hmem) (by rwa [normalizedTarget_of_snapshotKind hkind])
      refine ⟨_, hmem, u, mem_canonicalize_of_mem inventory hu,
        targetsConflict_of_eq hhost hkindu.symm (Or.inr ?_)⟩
      show normalizedTarget t.kind row.externalId = u.value
      rw [normalizedTarget_of_snapshotKind hkind, htrim, hid]
  abbreviated l r hr htype row _ t ht u hu hhost hmatch hdomain hnone := by
    rw [dockerMutationScopesConflict_comm]
    exact canonicalize_widened hr htype hu hnone (mem_canonicalize_of_mem inventory ht) hhost
      (hmatch.1.2.symm.trans hdomain.2)
  widened scope hraw htype t ht hnone other hother := by
    obtain ⟨u, hu, hhost, hkind⟩ := hother
    exact canonicalize_widened hraw htype ht hnone hu hhost hkind
  ambiguous scope hraw t ht hkind hstar row hrow hmatch value hvalue hblank := by
    have hmem := mem_canonicalize_alias hraw ht hkind hstar
      (fun values hmem => mem_aliasTargets_of_matches hrow hmatch hvalue hmem)
      (by rwa [normalizedTarget_of_snapshotKind hkind])
    rwa [normalizedTarget_of_snapshotKind hkind] at hmem

end

end

/-! ### A network and its abbreviated id -/

section

attribute [local instance] Js.asciiCaseMapping

def networkHost : Id := "44444444-4444-4444-8444-444444444444"

/-- The network `web`. -/
def webNetwork : ResourceSnapshot where
  hostId := networkHost
  kind := .network
  externalId := "f2de39df4171"
  name := "web"
  labels := .absent
  image := none

/-- One host with one network. -/
def oneNetwork : Inventory where
  hosts := [networkHost]
  snapshots := [webNetwork]
  composeStacks := []
  deploymentAnalyses := []

/-- `container.run` on the network by the first digits of its id. -/
def runOnAbbreviatedNetwork : DockerMutationScope where
  type := .containerRun
  hostIds := [networkHost]
  targets := [⟨networkHost, .image, "nginx"⟩, ⟨networkHost, .network, "f2de39"⟩,
    ⟨networkHost, .registryAuth, "*"⟩]

/-- `network.remove` of the network by its name. -/
def removeNetworkByName : DockerMutationScope where
  type := .networkRemove
  hostIds := [networkHost]
  targets := [⟨networkHost, .network, "web"⟩]

end

end ComposeBastion
