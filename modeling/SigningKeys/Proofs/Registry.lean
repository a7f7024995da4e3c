import Mathlib.Data.List.Nodup
import SigningKeys.Proofs.Record.Issue

/-!
# Which registrations make a registry

A list of registrations makes a registry exactly when one of them is the default and their kinds are
distinct (`Registry.exists_build_iff`); otherwise the first condition that does not hold decides the
error (`Registration.Refuses`). A registry answers for the registrations that it was built from
(`Registry.Answers`), and their order does not count. The main statement is
`Registry.build_any_order`.
-/

namespace SigningKeys

namespace Registration

/-- One registration is the default, and no two are of one kind. -/
structure AreAcceptable (registrations : List Registration) : Prop where
  oneDefault : registrations.countP (·.isDefault) = 1
  distinct : (registrations.map algorithm).Nodup

/-- The registrations are turned away with a fault: that of the first condition which does not hold.
Of the kinds that are registered twice the one counts whose second registration comes first. -/
inductive Refuses (registrations : List Registration) : SettingFault → Prop where
  | noDefault :
      registrations.countP (·.isDefault) = 0 →
      Refuses registrations .noDefaultGenerator
  | severalDefaults :
      1 < registrations.countP (·.isDefault) →
      Refuses registrations (.severalDefaultGenerators (marked registrations))
  | twice (before registration after) :
      registrations.countP (·.isDefault) = 1 →
      registrations = before ++ registration :: after →
      (before.map algorithm).Nodup →
      registration.algorithm ∈ before.map algorithm →
      Refuses registrations (.generatorRegisteredTwice registration.algorithm)

variable {registrations others : List Registration}

/-- There are as many marked kinds as defaults. -/
theorem length_marked (registrations : List Registration) :
    (marked registrations).length = registrations.countP (·.isDefault) := by
  rw [marked, List.length_map, List.countP_eq_length_filter]

/-- Acceptable registrations are acceptable in any order. -/
theorem AreAcceptable.of_perm (h : AreAcceptable registrations)
    (hperm : registrations.Perm others) : AreAcceptable others :=
  ⟨hperm.countP_eq _ ▸ h.oneDefault, (hperm.map algorithm).nodup_iff.1 h.distinct⟩

/-- Registrations that are turned away are not acceptable. -/
theorem Refuses.not_areAcceptable {fault : SettingFault} (h : Refuses registrations fault) :
    ¬ AreAcceptable registrations := by
  intro hacceptable
  have hone := hacceptable.oneDefault
  have hdistinct := hacceptable.distinct
  cases h with
  | noDefault hnone => omega
  | severalDefaults hseveral => omega
  | twice before registration after _ hsplit _ hmem =>
      rw [hsplit, List.map_append, List.map_cons] at hdistinct
      exact (List.nodup_append.1 hdistinct).2.2 _ hmem _ List.mem_cons_self rfl

end Registration

/-- A kind that is found repeated stands behind a list without duplicates, and stood before in this
list or was seen earlier. -/
theorem firstRepeated?_eq_some {seen algorithms : List Algorithm} {algorithm : Algorithm}
    (h : firstRepeated? seen algorithms = some algorithm) :
    ∃ before after, algorithms = before ++ algorithm :: after ∧ before.Nodup ∧
      (∀ other ∈ before, other ∉ seen) ∧ (algorithm ∈ before ∨ algorithm ∈ seen) := by
  induction algorithms generalizing seen with
  | nil => cases h
  | cons first rest ih =>
      rw [firstRepeated?] at h
      split at h
      · next hseen =>
          cases h
          exact ⟨[], rest, rfl, List.nodup_nil, fun _ hmem ↦ absurd hmem List.not_mem_nil,
            .inr hseen⟩
      · next hfresh =>
          obtain ⟨before, after, rfl, hnodup, hothers, hmem⟩ := ih h
          refine ⟨first :: before, after, rfl, ?_, ?_, ?_⟩
          · refine List.nodup_cons.2 ⟨fun hfirst ↦ ?_, hnodup⟩
            exact hothers first hfirst List.mem_cons_self
          · intro other hother
            rcases List.mem_cons.1 hother with rfl | hother
            · exact hfresh
            · exact fun hseen ↦ hothers other hother (List.mem_cons_of_mem _ hseen)
          · rcases hmem with hmem | hmem
            · exact .inl (List.mem_cons_of_mem _ hmem)
            · rcases List.mem_cons.1 hmem with rfl | hmem
              · exact .inl List.mem_cons_self
              · exact .inr hmem

namespace Registry

open Registration

variable {registrations others : List Registration} {registry other : Registry}

/-! ## Building -/

/-- Building ends with a registry of all generators, the marked one being the default, or turns the
registrations away. -/
theorem build_cases (registrations : List Registration) :
    (∃ registry, build registrations = .ok registry ∧ AreAcceptable registrations ∧
      registry.generators = registrations.map generator ∧
      marked registrations = [registry.default]) ∨
    ∃ fault, build registrations = .error (.configuration fault) ∧
      Refuses registrations fault := by
  have hlength := length_marked registrations
  unfold build
  split
  · next default hmarked =>
      rw [hmarked, List.length_singleton] at hlength
      split
      · next algorithm hrepeated =>
          -- The repeated kind is that of a registration which comes after another one.
          obtain ⟨before, after, hsplit, hnodup, -, hmem⟩ := firstRepeated?_eq_some hrepeated
          obtain ⟨front, back, rfl, rfl, hback⟩ := List.map_eq_append_iff.1 hsplit
          obtain ⟨registration, rest, rfl, rfl, rfl⟩ := List.map_eq_cons_iff.1 hback
          exact .inr ⟨_, rfl, .twice front registration rest hlength.symm rfl hnodup
            (hmem.resolve_right List.not_mem_nil)⟩
      · next hrepeated =>
          exact .inl ⟨_, rfl, ⟨hlength.symm, (firstRepeated?_eq_none_iff.1 hrepeated).1⟩, rfl,
            hmarked⟩
  · next hmarked =>
      rw [hmarked, List.length_nil] at hlength
      exact .inr ⟨_, rfl, .noDefault hlength.symm⟩
  · next hone hnone =>
      refine .inr ⟨_, rfl, .severalDefaults ?_⟩
      rw [← hlength]
      match hmarked : marked registrations with
      | [] => exact absurd hmarked hnone
      | [default] => exact absurd hmarked (hone default)
      | _ :: _ :: _ => exact Nat.succ_lt_succ (Nat.succ_pos _)

/-- A registry is built exactly from acceptable registrations. -/
theorem exists_build_iff :
    (∃ registry, build registrations = .ok registry) ↔ AreAcceptable registrations := by
  rcases build_cases registrations with ⟨registry, hbuild, hacceptable, -⟩ | ⟨fault, hbuild, hfault⟩
  · exact ⟨fun _ ↦ hacceptable, fun _ ↦ ⟨registry, hbuild⟩⟩
  · rw [hbuild]
    constructor
    · rintro ⟨registry, h⟩
      cases h
    · intro h
      exact absurd h hfault.not_areAcceptable

/-- A registry that was built has all generators that were registered, and the marked one is the
default. -/
theorem generators_of_build (h : build registrations = .ok registry) :
    registry.generators = registrations.map generator ∧
      marked registrations = [registry.default] := by
  rcases build_cases registrations with ⟨built, hbuild, -, hparts⟩ | ⟨fault, hbuild, -⟩
  · cases hbuild.symm.trans h
    exact hparts
  · cases hbuild.symm.trans h

/-- The fault in an error is that of the first condition which does not hold. -/
theorem refuses_of_build_eq_error {error : Error} (h : build registrations = .error error) :
    ∃ fault, Refuses registrations fault ∧ error = .configuration fault := by
  rcases build_cases registrations with ⟨registry, hbuild, -⟩ | ⟨fault, hbuild, hfault⟩
  · cases hbuild.symm.trans h
  · cases hbuild.symm.trans h
    exact ⟨fault, hfault, rfl⟩

/-! ## Answers -/

/-- The generator of a kind is found when it is among the generators. -/
theorem find?_eq_some_iff {algorithm : Algorithm} {generator : Generator} :
    registry.find? algorithm = some generator ↔
      generator ∈ registry.generators ∧ generator.algorithm = algorithm := by
  constructor
  · intro h
    exact ⟨List.mem_of_find?_eq_some h, algorithm_of_find? h⟩
  · rintro ⟨hmem, rfl⟩
    have hsome : (registry.find? generator.algorithm).isSome := by
      rw [find?, List.find?_isSome]
      exact ⟨generator, hmem, by simp⟩
    obtain ⟨found, hfound⟩ := Option.isSome_iff_exists.1 hsome
    have hsame : found.algorithm = generator.algorithm := algorithm_of_find? hfound
    have hmemFound : found ∈ registry.generators := List.mem_of_find?_eq_some hfound
    rw [hfound, List.inj_on_of_nodup_map registry.distinct hmemFound hmem hsame]

/-- The registry answers for the registrations: a kind is resolved to the generator that was
registered for it, if there is one, and else turned away; the default generator is there, and is the
one that was marked; and the kinds are listed in the order of their tags, each once. -/
structure Answers (registry : Registry) (registrations : List Registration) : Prop where
  resolve_registered : ∀ registration ∈ registrations,
    registry.resolve registration.algorithm = .ok registration.generator
  resolve_unregistered : ∀ algorithm, algorithm ∉ registrations.map Registration.algorithm →
    registry.resolve algorithm = .error (.unsupportedAlgorithm algorithm.tag)
  default_marked : ∃ registration ∈ registrations, registration.isDefault = true ∧
    registry.default = registration.algorithm ∧
    registry.find? registry.default = some registration.generator ∧
    registry.defaultGenerator = registration.generator
  mem_algorithms : ∀ algorithm,
    algorithm ∈ registry.algorithms ↔ algorithm ∈ registrations.map Registration.algorithm
  sorted_algorithms : (registry.algorithms.map Algorithm.tag).Pairwise (· < ·)

/-- A generator is found for a kind exactly when it was registered for it. -/
theorem find?_of_build (h : build registrations = .ok registry) {algorithm : Algorithm}
    {generator : Generator} :
    registry.find? algorithm = some generator ↔
      ∃ registration ∈ registrations,
        registration.generator = generator ∧ registration.algorithm = algorithm := by
  rw [find?_eq_some_iff, (generators_of_build h).1, List.mem_map]
  constructor
  · rintro ⟨⟨registration, hmem, rfl⟩, hkind⟩
    exact ⟨registration, hmem, rfl, hkind⟩
  · rintro ⟨registration, hmem, rfl, hkind⟩
    exact ⟨⟨registration, hmem, rfl⟩, hkind⟩

/-- No generator is found for a kind exactly when none was registered for it. -/
theorem find?_eq_none_of_build (h : build registrations = .ok registry) {algorithm : Algorithm} :
    registry.find? algorithm = none ↔ algorithm ∉ registrations.map Registration.algorithm := by
  rw [← not_iff_not, not_not, ← ne_eq, Option.ne_none_iff_exists', List.mem_map]
  constructor
  · rintro ⟨generator, hfound⟩
    obtain ⟨registration, hmem, -, hkind⟩ := (find?_of_build h).1 hfound
    exact ⟨registration, hmem, hkind⟩
  · rintro ⟨registration, hmem, hkind⟩
    exact ⟨registration.generator, (find?_of_build h).2 ⟨registration, hmem, rfl, hkind⟩⟩

/-- The kinds are listed as often as they have generators. -/
theorem perm_algorithms (registry : Registry) :
    registry.algorithms.Perm (registry.generators.map Generator.algorithm) :=
  List.mergeSort_perm _ _

/-- The kinds are listed in the order of their tags, and none twice. -/
theorem pairwise_algorithms (registry : Registry) :
    registry.algorithms.Pairwise fun left right ↦ left.tag < right.tag := by
  have hsorted : registry.algorithms.Pairwise fun left right ↦ left.tagLe right = true :=
    List.pairwise_mergeSort Algorithm.tagLe_trans Algorithm.tagLe_total _
  have hnodup : registry.algorithms.Nodup := registry.perm_algorithms.nodup_iff.2 registry.distinct
  refine (hsorted.and hnodup).imp fun {left right} ⟨hle, hne⟩ ↦ ?_
  exact String.not_le.1 fun hge ↦ hne (Algorithm.tagLe_antisymm hle (decide_eq_true hge))

/-- A registry answers for the registrations that it was built from. -/
theorem answers_of_build (h : build registrations = .ok registry) :
    registry.Answers registrations := by
  refine ⟨?_, ?_, ?_, ?_, ?_⟩
  · intro registration hmem
    rw [resolve, (find?_of_build h).2 ⟨registration, hmem, rfl, rfl⟩]
  · intro algorithm hmem
    rw [resolve, (find?_eq_none_of_build h).2 hmem]
  · have hmarked : registry.default ∈ marked registrations := by
      rw [(generators_of_build h).2]
      exact List.mem_cons_self
    obtain ⟨registration, hmem, hkind⟩ := List.mem_map.1 hmarked
    obtain ⟨hregistered, hdefault⟩ := List.mem_filter.1 hmem
    have hfound : registry.find? registry.default = some registration.generator :=
      (find?_of_build h).2 ⟨registration, hregistered, rfl, hkind⟩
    have hsame := registry.find?_default.symm.trans hfound
    exact ⟨registration, hregistered, hdefault, hkind.symm, hfound, Option.some.inj hsame⟩
  · intro algorithm
    rw [registry.perm_algorithms.mem_iff, (generators_of_build h).1, List.map_map]
    rfl
  · exact List.pairwise_map.2 registry.pairwise_algorithms

/-! ## The order of the registrations -/

/-- Two registries give the same answers. -/
structure SameAnswers (registry other : Registry) : Prop where
  resolve : ∀ algorithm, registry.resolve algorithm = other.resolve algorithm
  default : registry.default = other.default
  defaultGenerator : registry.defaultGenerator = other.defaultGenerator
  algorithms : registry.algorithms = other.algorithms

/-- Registries that are built from the same registrations in any order give the same answers. -/
theorem sameAnswers_of_perm (hperm : registrations.Perm others)
    (h : build registrations = .ok registry) (hother : build others = .ok other) :
    registry.SameAnswers other := by
  have hfind : registry.find? = other.find? := by
    funext algorithm
    refine Option.ext fun generator ↦ ?_
    rw [find?_of_build h, find?_of_build hother]
    exact exists_congr fun registration ↦ and_congr_left fun _ ↦ hperm.mem_iff
  have hdefault : registry.default = other.default := by
    have hmarked : (marked registrations).Perm (marked others) :=
      (hperm.filter _).map Registration.algorithm
    rw [(generators_of_build h).2, (generators_of_build hother).2] at hmarked
    exact List.singleton_perm_singleton.1 hmarked
  refine ⟨fun algorithm ↦ ?_, hdefault, ?_, ?_⟩
  · rw [Registry.resolve, Registry.resolve, hfind]
  · have hsame := registry.find?_default
    rw [hfind, hdefault, other.find?_default] at hsame
    exact (Option.some.inj hsame).symm
  · -- Both lists are sorted, and have the same kinds.
    have hkinds : registry.algorithms.Perm other.algorithms := by
      refine registry.perm_algorithms.trans (.trans ?_ other.perm_algorithms.symm)
      rw [(generators_of_build h).1, (generators_of_build hother).1]
      exact (hperm.map generator).map Generator.algorithm
    exact hkinds.eq_of_pairwise (fun _ _ _ _ hlt hgt ↦ absurd hgt (String.lt_asymm hlt))
      registry.pairwise_algorithms other.pairwise_algorithms

/-- Registrations make a registry exactly when one of them is the default and no two are of one
kind; otherwise the first of these conditions that does not hold decides the error. A registry
answers for its registrations. In another order they make a registry as well, with the same answers,
or again none. -/
theorem build_any_order (registrations : List Registration) :
    ((∃ registry, build registrations = .ok registry) ↔ AreAcceptable registrations) ∧
    (∀ error, build registrations = .error error →
      ∃ fault, Refuses registrations fault ∧ error = .configuration fault) ∧
    (∀ registry, build registrations = .ok registry → registry.Answers registrations) ∧
    ∀ others, registrations.Perm others →
      ((∃ registry, build registrations = .ok registry) ↔
        ∃ other, build others = .ok other) ∧
      ∀ registry other, build registrations = .ok registry → build others = .ok other →
        registry.SameAnswers other := by
  refine ⟨exists_build_iff, fun error ↦ refuses_of_build_eq_error,
    fun registry ↦ answers_of_build, fun others hperm ↦ ⟨?_, fun registry other ↦
      sameAnswers_of_perm hperm⟩⟩
  rw [exists_build_iff, exists_build_iff]
  exact ⟨fun h ↦ h.of_perm hperm, fun h ↦ h.of_perm hperm.symm⟩

/-- A generator of each kind makes a registry in either order, and two generators of one kind make
none, although one of them is the default. -/
theorem build_any_order_two :
    let point : Registration := ⟨.ec, false⟩
    let rsa : Registration := ⟨.unavailable .rsa "no entropy source", true⟩
    ∃ registry other, build [point, rsa] = .ok registry ∧ build [rsa, point] = .ok other ∧
      registry.SameAnswers other ∧ registry.Answers [point, rsa] ∧
      registry.algorithms = [.ec, .rsa] ∧ registry.default = .rsa ∧
      build [rsa, rsa] = .error (.configuration (.severalDefaultGenerators [.rsa, .rsa])) ∧
      build [rsa, { rsa with isDefault := false }] =
        .error (.configuration (.generatorRegisteredTwice .rsa)) := by
  intro point rsa
  obtain ⟨registry, hregistry⟩ : ∃ registry, build [point, rsa] = .ok registry := ⟨_, rfl⟩
  obtain ⟨-, -, hanswers, horder⟩ := build_any_order [point, rsa]
  obtain ⟨hiff, hsame⟩ := horder [rsa, point] (List.Perm.swap _ _ _)
  obtain ⟨other, hother⟩ := hiff.1 ⟨registry, hregistry⟩
  refine ⟨registry, other, hregistry, hother, hsame _ _ hregistry hother,
    hanswers _ hregistry, ?_, ?_, rfl, rfl⟩
  · cases hregistry
    exact List.mergeSort_of_pairwise (by decide)
  · cases hregistry
    rfl

end Registry

end SigningKeys
