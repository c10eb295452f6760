import ComposeBastion.Docker.JobScope

namespace ComposeBastion

/-!
# The spelling of host ids in scopes

`idSchema` accepts a UUID in upper and in lower case, and `dockerMutationScope` puts it into
the targets and the admission keys as it stands.  `lowerHosts` is the same action with its
host ids in the spelling of the database, and `SpellingInvariant a b` says that the scopes of
`a` and `b` meet exactly when those of the lower-case actions do.

* `mem_targets_lowerHosts` — lower-casing the host ids lower-cases the hosts of the targets
  and nothing else;
* `sharesKeyWith_iff` — two scopes share an admission key exactly when they share a host;
* `HostsSpelledAlike` — no host id of the one action spells a host id of the other in another way;
* `spellingInvariant_by_hosts` — that is enough for the invariance, and needed unless one clone
  hides a spelling behind another one.
-/

/-! ### The same action in lower case -/

/-- The payload with the second host of a clone in lower case. -/
def ActionPayload.lowerHosts : ActionPayload → ActionPayload
  | .containerClone targetHostId containerId targetName =>
      .containerClone (uuidText targetHostId) containerId targetName
  | .volumeClone backupId targetHostId sourceVolumeName targetVolumeName =>
      .volumeClone backupId (uuidText targetHostId) sourceVolumeName targetVolumeName
  | payload => payload

theorem ActionPayload.targetHostId_lowerHosts (payload : ActionPayload) :
    payload.lowerHosts.targetHostId = payload.targetHostId.map uuidText := by
  cases payload <;> rfl

/-- The action with all its host ids in lower case. -/
def DockerActionRequest.lowerHosts (action : DockerActionRequest) : DockerActionRequest where
  hostId := uuidText action.hostId
  payload := action.payload.lowerHosts
  hostId_isUuid := isUuid_uuidText action.hostId_isUuid
  targetHostId_isUuid := by
    have htarget := action.targetHostId_isUuid
    rw [ActionPayload.targetHostId_lowerHosts]
    cases hhost : action.payload.targetHostId with
    | none => rfl
    | some host =>
      rw [hhost] at htarget
      exact isUuid_uuidText htarget

/-- The target on the host in lower case. -/
def DockerMutationTarget.lowerHost (t : DockerMutationTarget) : DockerMutationTarget :=
  { t with hostId := uuidText t.hostId }

/-- Whether two targets would collide on one host: `targetsConflict` without its comparison
    of the hosts. -/
def sameObject (l r : DockerMutationTarget) : Bool :=
  targetsConflict { l with hostId := r.hostId } r

theorem targetsConflict_iff {l r : DockerMutationTarget} :
    targetsConflict l r = true ↔ l.hostId = r.hostId ∧ sameObject l r = true := by
  constructor
  · intro h
    have hhost := (targetsConflict_same h).1
    exact ⟨hhost, by rwa [sameObject, ← hhost]⟩
  · rintro ⟨hhost, h⟩
    rwa [sameObject, ← hhost] at h

theorem sameObject_lowerHost (l r : DockerMutationTarget) :
    sameObject l.lowerHost r.lowerHost = sameObject l r := by
  unfold sameObject targetsConflict DockerMutationTarget.lowerHost
  simp

section

variable [Js.CaseMapping]

/-! ### The scope of an action -/

/-- The targets of the scope of an action; an action without a scope has none. -/
def DockerActionRequest.targets (action : DockerActionRequest) : List DockerMutationTarget :=
  ((dockerMutationScope action.hostId action.payload).map (·.targets)).getD []

/-- The scopes of the two actions conflict. -/
def DockerActionRequest.ConflictsWith (a b : DockerActionRequest) : Prop :=
  ∃ l r, dockerMutationScope a.hostId a.payload = some l
    ∧ dockerMutationScope b.hostId b.payload = some r ∧ dockerMutationScopesConflict l r = true

/-- The scopes of the two actions share an admission key. -/
def DockerActionRequest.SharesKeyWith (a b : DockerActionRequest) : Prop :=
  ∃ l r, dockerMutationScope a.hostId a.payload = some l
    ∧ dockerMutationScope b.hostId b.payload = some r
    ∧ ∃ key ∈ dockerMutationAdmissionKeys l, key ∈ dockerMutationAdmissionKeys r

/-- The two actions meet exactly when they do with all host ids in lower case. -/
def SpellingInvariant (a b : DockerActionRequest) : Prop :=
  (a.ConflictsWith b ↔ a.lowerHosts.ConflictsWith b.lowerHosts)
    ∧ (a.SharesKeyWith b ↔ a.lowerHosts.SharesKeyWith b.lowerHosts)

/-- The host ids of an action: its `hostId`, and the `targetHostId` of a clone. -/
def DockerActionRequest.hosts (action : DockerActionRequest) : List Id :=
  action.hostId :: action.payload.targetHostId.toList

/-- Host ids of the two actions that are the same UUID are the same text. -/
def HostsSpelledAlike (a b : DockerActionRequest) : Prop :=
  ∀ host ∈ a.hosts, ∀ host' ∈ b.hosts, uuidText host = uuidText host' → host = host'

instance (a b : DockerActionRequest) : Decidable (HostsSpelledAlike a b) :=
  inferInstanceAs (Decidable (∀ host ∈ a.hosts, ∀ host' ∈ b.hosts, _))

/-- The action spells a host that is its source and its target in one way. -/
def DockerActionRequest.Consistent (action : DockerActionRequest) : Prop :=
  HostsSpelledAlike action action

/-- The action names an object on each of its hosts. -/
def DockerActionRequest.NamesObjects (action : DockerActionRequest) : Prop :=
  ∀ host ∈ action.hosts, ∃ t ∈ action.targets, t.hostId = host

/-- `(kind, value)` is what `addTarget` stores for one of the values, or the `*` beside it. -/
def StoresValue (values : List (MutationTargetKind × String)) (kind : MutationTargetKind)
    (value : String) : Prop :=
  ∃ v ∈ values, normalizedTarget v.1 v.2 ≠ ""
    ∧ ((kind = v.1 ∧ value = normalizedTarget v.1 v.2)
      ∨ (v.1 = .hostPath ∧ normalizedTarget v.1 v.2 ≠ "*" ∧ kind = .hostPath ∧ value = "*"))

theorem mem_addTargets_iff {targets : List DockerMutationTarget} {hostId : Id}
    {values : List (MutationTargetKind × String)} {t : DockerMutationTarget} :
    t ∈ addTargets targets hostId values ↔
      t ∈ targets ∨ (hostId ≠ "" ∧ t.hostId = hostId ∧ StoresValue values t.kind t.value) := by
  rw [mem_addTargets]
  refine or_congr_right ⟨?_, ?_⟩
  · rintro ⟨v, hv, hhost, hblank, rfl | ⟨hpath, hstar, rfl⟩⟩
    · exact ⟨hhost, rfl, v, hv, hblank, Or.inl ⟨rfl, rfl⟩⟩
    · exact ⟨hhost, rfl, v, hv, hblank, Or.inr ⟨hpath, hstar, rfl, rfl⟩⟩
  · obtain ⟨host, kind, value⟩ := t
    rintro ⟨hhost, rfl, v, hv, hblank, ⟨rfl, rfl⟩ | ⟨hpath, hstar, rfl, rfl⟩⟩
    · exact ⟨v, hv, hhost, hblank, Or.inl rfl⟩
    · exact ⟨v, hv, hhost, hblank, Or.inr ⟨hpath, hstar, rfl⟩⟩

/-- Every action but `container.clone` stores the same values on whatever host it is for. -/
theorem mutationTargets_own {payload : ActionPayload}
    (h : ∀ host containerId name, payload ≠ .containerClone host containerId name) :
    ∃ values : Option (List (MutationTargetKind × String)),
      ∀ hostId, mutationTargets hostId payload = values.map (addTargets [] hostId)
        ∧ mutationTargets hostId payload.lowerHosts = values.map (addTargets [] hostId) := by
  cases payload
  case containerClone host containerId name => exact absurd rfl (h host containerId name)
  all_goals first
    | exact ⟨some _, fun _ => ⟨rfl, rfl⟩⟩
    | exact ⟨none, fun _ => ⟨rfl, rfl⟩⟩

theorem mem_targets {action : DockerActionRequest} {t : DockerMutationTarget} :
    t ∈ action.targets ↔ ∃ targets, mutationTargets action.hostId action.payload = some targets
      ∧ t ∈ targets := by
  have htrim := trim_of_isUuid action.hostId_isUuid
  have hhost := ne_empty_of_isUuid action.hostId_isUuid
  unfold DockerActionRequest.targets dockerMutationScope
  rw [htrim, if_neg hhost]
  cases mutationTargets action.hostId action.payload with
  | none => simp
  | some targets =>
    by_cases hnone : targets = []
    · simp [hnone]
    · simp [hnone]

theorem exists_scope_of_mem {action : DockerActionRequest} {t : DockerMutationTarget}
    (ht : t ∈ action.targets) :
    ∃ scope, dockerMutationScope action.hostId action.payload = some scope
      ∧ scope.targets = action.targets := by
  unfold DockerActionRequest.targets at ht ⊢
  cases hscope : dockerMutationScope action.hostId action.payload with
  | none => rw [hscope] at ht; cases ht
  | some scope => exact ⟨scope, rfl, rfl⟩

theorem targets_of_scope {action : DockerActionRequest} {scope : DockerMutationScope}
    (h : dockerMutationScope action.hostId action.payload = some scope) :
    action.targets = scope.targets := by
  simp [DockerActionRequest.targets, h]

/-- The targets of an action are on its hosts, which are UUIDs. -/
theorem isUuid_of_mem_targets {action : DockerActionRequest} {t : DockerMutationTarget}
    (ht : t ∈ action.targets) : isUuid t.hostId = true := by
  obtain ⟨targets, htargets, hmem⟩ := mem_targets.mp ht
  rcases hostId_of_mem_mutationTargets htargets hmem with hown | ⟨host, hpayload, hhost⟩
  · rw [hown]
    exact action.hostId_isUuid
  · have huuid := action.targetHostId_isUuid
    rw [hpayload] at huuid
    rw [hhost, trim_of_isUuid huuid]
    exact huuid

/-- Lower-casing the host ids of an action lower-cases the hosts of its targets. -/
theorem mem_targets_lowerHosts (action : DockerActionRequest) {t : DockerMutationTarget} :
    t ∈ action.lowerHosts.targets ↔ ∃ s ∈ action.targets, t = s.lowerHost := by
  have hown := ne_empty_of_isUuid action.hostId_isUuid
  have hlower := ne_empty_of_isUuid action.lowerHosts.hostId_isUuid
  by_cases hclone : ∃ host containerId name,
      action.payload = .containerClone host containerId name
  · obtain ⟨host, containerId, name, hpayload⟩ := hclone
    have huuid : isUuid host = true := by
      have h := action.targetHostId_isUuid
      rwa [hpayload] at h
    simp only [mem_targets, DockerActionRequest.lowerHosts, hpayload, ActionPayload.lowerHosts,
      mutationTargets, Option.some.injEq, exists_eq_left', mem_addTargets_iff, trim_of_isUuid huuid,
      trim_of_isUuid (isUuid_uuidText huuid), List.not_mem_nil, false_or]
    constructor
    · rintro (⟨_, hhost, hstored⟩ | ⟨_, hhost, hstored⟩)
      · exact ⟨⟨action.hostId, t.kind, t.value⟩, Or.inl ⟨hown, rfl, hstored⟩,
          by rw [DockerMutationTarget.lowerHost, ← hhost]⟩
      · exact ⟨⟨host, t.kind, t.value⟩, Or.inr ⟨ne_empty_of_isUuid huuid, rfl, hstored⟩,
          by rw [DockerMutationTarget.lowerHost, ← hhost]⟩
    · rintro ⟨s, ⟨_, hhost, hstored⟩ | ⟨_, hhost, hstored⟩, rfl⟩
      · exact Or.inl ⟨hlower, by rw [DockerMutationTarget.lowerHost, hhost], hstored⟩
      · exact Or.inr ⟨ne_empty_of_isUuid (isUuid_uuidText huuid),
          by rw [DockerMutationTarget.lowerHost, hhost], hstored⟩
  · push Not at hclone
    obtain ⟨values, hvalues⟩ := mutationTargets_own hclone
    simp only [mem_targets, DockerActionRequest.lowerHosts, (hvalues _).1, (hvalues _).2]
    cases values with
    | none => simp
    | some values =>
      simp only [Option.map_some, Option.some.injEq, exists_eq_left', mem_addTargets_iff,
        List.not_mem_nil, false_or]
      constructor
      · rintro ⟨_, hhost, hstored⟩
        exact ⟨⟨action.hostId, t.kind, t.value⟩, ⟨hown, rfl, hstored⟩,
          by rw [DockerMutationTarget.lowerHost, ← hhost]⟩
      · rintro ⟨s, ⟨_, hhost, hstored⟩, rfl⟩
        exact ⟨hlower, by rw [DockerMutationTarget.lowerHost, hhost], hstored⟩

/-! ### Conflicts and keys -/

theorem conflictsWith_iff {a b : DockerActionRequest} :
    a.ConflictsWith b ↔ ∃ t ∈ a.targets, ∃ u ∈ b.targets,
      t.hostId = u.hostId ∧ sameObject t u = true := by
  constructor
  · rintro ⟨l, r, hl, hr, h⟩
    obtain ⟨t, ht, u, hu, htu⟩ := dockerMutationScopesConflict_iff.mp h
    rw [targets_of_scope hl, targets_of_scope hr]
    exact ⟨t, ht, u, hu, targetsConflict_iff.mp htu⟩
  · rintro ⟨t, ht, u, hu, htu⟩
    obtain ⟨l, hl, hlt⟩ := exists_scope_of_mem ht
    obtain ⟨r, hr, hrt⟩ := exists_scope_of_mem hu
    refine ⟨l, r, hl, hr, dockerMutationScopesConflict_iff.mpr ?_⟩
    rw [hlt, hrt]
    exact ⟨t, ht, u, hu, targetsConflict_iff.mpr htu⟩

/-- A scope names the hosts of its targets only. -/
theorem exists_target_of_mem_hostIds {hostId host : Id} {payload : ActionPayload}
    {scope : DockerMutationScope} (h : dockerMutationScope hostId payload = some scope)
    (hhost : host ∈ scope.hostIds) : ∃ t ∈ scope.targets, t.hostId = host := by
  unfold dockerMutationScope at h
  split at h
  · cases h
  · split at h
    · cases h
    · split at h
      · cases h
      · cases h
        exact List.mem_map.mp (mem_sortedUnique.mp hhost)

omit [Js.CaseMapping] in
/-- What the admission keys start with. -/
def admissionKeyLabels : List String :=
  ["docker-mutation-admission:", "deployment-target:path:", "deployment-target:project:"]

omit [Js.CaseMapping] in
/-- Two labels differ in their first twenty characters. -/
theorem label_eq_of_append_eq {label label' : String} (hmem : label ∈ admissionKeyLabels)
    (hmem' : label' ∈ admissionKeyLabels) {rest rest' : List Char}
    (h : label.toList ++ rest = label'.toList ++ rest') : label = label' := by
  have hlength : ∀ l ∈ admissionKeyLabels, 20 ≤ l.toList.length := by decide
  have hdistinct : ∀ l ∈ admissionKeyLabels, ∀ l' ∈ admissionKeyLabels,
      l.toList.take 20 = l'.toList.take 20 → l = l' := by decide
  apply hdistinct label hmem label' hmem'
  rw [← List.take_append_of_le_length (hlength label hmem), h,
    List.take_append_of_le_length (hlength label' hmem')]

/-- Every key is a label and the host of a target, a path or project on it apart. -/
theorem mem_admissionKeys {hostId : Id} {payload : ActionPayload} {scope : DockerMutationScope}
    (hscope : dockerMutationScope hostId payload = some scope) {key : String}
    (h : key ∈ dockerMutationAdmissionKeys scope) :
    ∃ label ∈ admissionKeyLabels, ∃ t ∈ scope.targets, ∃ rest,
      key.toList = label.toList ++ (t.hostId.toList ++ rest) := by
  rw [dockerMutationAdmissionKeys, List.mem_append, mem_sortedUnique, mem_sortedUnique,
    List.mem_map, List.mem_flatMap] at h
  rcases h with ⟨host, hhost, rfl⟩ | ⟨t, ht, hkey⟩
  · obtain ⟨t, ht, rfl⟩ := exists_target_of_mem_hostIds hscope hhost
    exact ⟨"docker-mutation-admission:", by decide, t, ht, [], by simp⟩
  · split at hkey
    · obtain rfl := List.mem_singleton.mp hkey
      exact ⟨"deployment-target:path:", by decide, t, ht, ':' :: t.value.toList, by simp⟩
    · obtain rfl := List.mem_singleton.mp hkey
      exact ⟨"deployment-target:project:", by decide, t, ht, ':' :: t.value.toList, by simp⟩
    · cases hkey

omit [Js.CaseMapping] in
/-- The host can be read off a key of a path or a project: a UUID has 36 characters. -/
theorem host_eq_of_key {h h' : Id} (huuid : isUuid h = true) (huuid' : isUuid h' = true)
    {rest rest' : List Char} (heq : h.toList ++ rest = h'.toList ++ rest') : h = h' := by
  have hlength : h.toList.length = h'.toList.length := by
    simp only [isUuid, Bool.and_eq_true, beq_iff_eq] at huuid huuid'
    rw [huuid.1, huuid'.1]
  exact String.toList_inj.mp (List.append_inj heq hlength).1

/-- Two actions share an admission key exactly when they share a host. -/
theorem sharesKeyWith_iff {a b : DockerActionRequest} :
    a.SharesKeyWith b ↔ ∃ t ∈ a.targets, ∃ u ∈ b.targets, t.hostId = u.hostId := by
  constructor
  · rintro ⟨l, r, hl, hr, key, hkeyl, hkeyr⟩
    obtain ⟨label, hlabel, t, ht, rest, hkey⟩ := mem_admissionKeys hl hkeyl
    obtain ⟨label', hlabel', u, hu, rest', hkey'⟩ := mem_admissionKeys hr hkeyr
    rw [← targets_of_scope hl] at ht
    rw [← targets_of_scope hr] at hu
    have heq := hkey.symm.trans hkey'
    obtain rfl := label_eq_of_append_eq hlabel hlabel' heq
    exact ⟨t, ht, u, hu, host_eq_of_key (isUuid_of_mem_targets ht) (isUuid_of_mem_targets hu)
      (List.append_cancel_left heq)⟩
  · rintro ⟨t, ht, u, hu, hhost⟩
    obtain ⟨l, hl, hlt⟩ := exists_scope_of_mem ht
    obtain ⟨r, hr, hrt⟩ := exists_scope_of_mem hu
    rw [← hlt] at ht
    rw [← hrt] at hu
    have hkey {scope : DockerMutationScope} {host : Id} (hmem : host ∈ scope.hostIds) :
        "docker-mutation-admission:" ++ host ∈ dockerMutationAdmissionKeys scope := by
      rw [dockerMutationAdmissionKeys, List.mem_append, mem_sortedUnique]
      exact Or.inl (List.mem_map_of_mem hmem)
    refine ⟨l, r, hl, hr, "docker-mutation-admission:" ++ t.hostId,
      hkey ((dockerMutationScope_spec hl).host_listed t ht), ?_⟩
    rw [hhost]
    exact hkey ((dockerMutationScope_spec hr).host_listed u hu)

/-! ### When the spelling does not matter -/

theorem conflictsWith_lowerHosts_iff {a b : DockerActionRequest} :
    a.lowerHosts.ConflictsWith b.lowerHosts ↔ ∃ t ∈ a.targets, ∃ u ∈ b.targets,
      uuidText t.hostId = uuidText u.hostId ∧ sameObject t u = true := by
  rw [conflictsWith_iff]
  constructor
  · rintro ⟨t, ht, u, hu, hhost, hsame⟩
    obtain ⟨t, hmem, rfl⟩ := (mem_targets_lowerHosts a).mp ht
    obtain ⟨u, hmem', rfl⟩ := (mem_targets_lowerHosts b).mp hu
    exact ⟨t, hmem, u, hmem', hhost, by rwa [sameObject_lowerHost] at hsame⟩
  · rintro ⟨t, ht, u, hu, hhost, hsame⟩
    exact ⟨t.lowerHost, (mem_targets_lowerHosts a).mpr ⟨t, ht, rfl⟩, u.lowerHost,
      (mem_targets_lowerHosts b).mpr ⟨u, hu, rfl⟩, hhost, by rwa [sameObject_lowerHost]⟩

theorem sharesKeyWith_lowerHosts_iff {a b : DockerActionRequest} :
    a.lowerHosts.SharesKeyWith b.lowerHosts ↔ ∃ t ∈ a.targets, ∃ u ∈ b.targets,
      uuidText t.hostId = uuidText u.hostId := by
  rw [sharesKeyWith_iff]
  constructor
  · rintro ⟨t, ht, u, hu, hhost⟩
    obtain ⟨t, hmem, rfl⟩ := (mem_targets_lowerHosts a).mp ht
    obtain ⟨u, hmem', rfl⟩ := (mem_targets_lowerHosts b).mp hu
    exact ⟨t, hmem, u, hmem', hhost⟩
  · rintro ⟨t, ht, u, hu, hhost⟩
    exact ⟨t.lowerHost, (mem_targets_lowerHosts a).mpr ⟨t, ht, rfl⟩, u.lowerHost,
      (mem_targets_lowerHosts b).mpr ⟨u, hu, rfl⟩, hhost⟩

/-- The targets of an action are on its hosts. -/
theorem mem_hosts_of_mem_targets {action : DockerActionRequest} {t : DockerMutationTarget}
    (ht : t ∈ action.targets) : t.hostId ∈ action.hosts := by
  obtain ⟨targets, htargets, hmem⟩ := mem_targets.mp ht
  rcases hostId_of_mem_mutationTargets htargets hmem with hown | ⟨host, hpayload, hhost⟩
  · rw [hown]
    exact List.mem_cons_self
  · have huuid := action.targetHostId_isUuid
    rw [hpayload] at huuid
    rw [hhost, trim_of_isUuid huuid, DockerActionRequest.hosts, hpayload]
    exact List.mem_cons_of_mem _ List.mem_cons_self

theorem spellingInvariant_of_hostsSpelledAlike {a b : DockerActionRequest}
    (h : HostsSpelledAlike a b) : SpellingInvariant a b := by
  have hsame : ∀ {t u}, t ∈ a.targets → u ∈ b.targets →
      (t.hostId = u.hostId ↔ uuidText t.hostId = uuidText u.hostId) := fun ht hu =>
    ⟨congrArg uuidText, h _ (mem_hosts_of_mem_targets ht) _ (mem_hosts_of_mem_targets hu)⟩
  rw [SpellingInvariant, conflictsWith_lowerHosts_iff, sharesKeyWith_lowerHosts_iff,
    conflictsWith_iff, sharesKeyWith_iff]
  constructor
  · exact exists_congr fun t => and_congr_right fun ht => exists_congr fun u =>
      and_congr_right fun hu => and_congr_left fun _ => hsame ht hu
  · exact exists_congr fun t => and_congr_right fun ht => exists_congr fun u =>
      and_congr_right fun hu => hsame ht hu

omit [Js.CaseMapping] in
/-- An action that is no clone has one host. -/
theorem mem_hosts_of_one_host {action : DockerActionRequest}
    (hone : action.payload.targetHostId = none) {host : Id} :
    host ∈ action.hosts ↔ host = action.hostId := by
  rw [DockerActionRequest.hosts, hone, Option.toList_none, List.mem_singleton]

/-- A key that the lower-case actions share stands for hosts that are spelled alike. -/
theorem hostsSpelledAlike_of_spellingInvariant {a b : DockerActionRequest}
    (ha : a.NamesObjects) (hb : b.NamesObjects) (hac : a.Consistent) (hbc : b.Consistent)
    (hone : a.payload.targetHostId = none ∨ b.payload.targetHostId = none)
    (h : SpellingInvariant a b) : HostsSpelledAlike a b := by
  intro host hhost host' hhost' hsame
  obtain ⟨t, ht, rfl⟩ := ha host hhost
  obtain ⟨u, hu, rfl⟩ := hb host' hhost'
  obtain ⟨t', ht', u', hu', hkey⟩ :=
    sharesKeyWith_iff.mp (h.2.mpr (sharesKeyWith_lowerHosts_iff.mpr ⟨t, ht, u, hu, hsame⟩))
  have hta := mem_hosts_of_mem_targets ht'
  have hub := mem_hosts_of_mem_targets hu'
  rcases hone with hone | hone
  · have hthost : t'.hostId = t.hostId :=
      ((mem_hosts_of_one_host hone).mp hta).trans ((mem_hosts_of_one_host hone).mp hhost).symm
    have huhost : u'.hostId = u.hostId :=
      hbc _ hub _ hhost' (by rw [← hkey, hthost, hsame])
    rw [← hthost, hkey, huhost]
  · have huhost : u'.hostId = u.hostId :=
      ((mem_hosts_of_one_host hone).mp hub).trans ((mem_hosts_of_one_host hone).mp hhost').symm
    have hthost : t'.hostId = t.hostId :=
      hac _ hta _ hhost (by rw [hkey, huhost, hsame])
    rw [← hthost, hkey, huhost]

/-- **Host-id spelling.**  Conflicts and admission keys do not depend on how the host ids are
    spelled when no host of the one action is a host of the other in another spelling.  That is
    exact for actions that name an object on each of their hosts and spell them in one way each,
    unless both are clones: then a common host can hide another one. -/
theorem spellingInvariant_by_hosts (a b : DockerActionRequest) :
    (HostsSpelledAlike a b → SpellingInvariant a b)
      ∧ (a.NamesObjects → b.NamesObjects → a.Consistent → b.Consistent →
        a.payload.targetHostId = none ∨ b.payload.targetHostId = none →
        (SpellingInvariant a b ↔ HostsSpelledAlike a b)) :=
  ⟨spellingInvariant_of_hostsSpelledAlike, fun ha hb hac hbc hone =>
    ⟨hostsSpelledAlike_of_spellingInvariant ha hb hac hbc hone,
      spellingInvariant_of_hostsSpelledAlike⟩⟩

end

section

attribute [local instance] Js.asciiCaseMapping

/-- Stopping a container of a host, its id in lower case. -/
def stopInLowerCase : DockerActionRequest :=
  ⟨"aaaaaaaa-1111-4111-8111-111111111111", .containerStop "db", by decide, by decide⟩

/-- Removing the same container of the same host, its id in upper case. -/
def removeInUpperCase : DockerActionRequest :=
  ⟨"AAAAAAAA-1111-4111-8111-111111111111", .containerRemove "db", by decide, by decide⟩

/-- The stop and the removal of one container pass each other. -/
theorem stop_and_remove_not_invariant : ¬ SpellingInvariant stopInLowerCase removeInUpperCase := by
  rintro ⟨hconflict, -⟩
  obtain ⟨l, r, hl, hr, h⟩ := hconflict.mpr ⟨_, _, rfl, rfl, by decide +kernel⟩
  obtain rfl := Option.some.inj (hl.symm.trans (Option.some_get (by decide +kernel)).symm)
  obtain rfl := Option.some.inj (hr.symm.trans (Option.some_get (by decide +kernel)).symm)
  revert h
  decide +kernel

/-- A clone onto another host, all ids in lower case. -/
def cloneInLowerCase : DockerActionRequest :=
  ⟨"aaaaaaaa-1111-4111-8111-111111111111",
    .containerClone "bbbbbbbb-2222-4222-8222-222222222222" "db" none, by decide, by decide⟩

/-- The spelling of the stop and the clone does not matter. -/
theorem stop_and_clone_invariant : SpellingInvariant stopInLowerCase cloneInLowerCase :=
  (spellingInvariant_by_hosts stopInLowerCase cloneInLowerCase).1 (by decide +kernel)

end

end ComposeBastion
