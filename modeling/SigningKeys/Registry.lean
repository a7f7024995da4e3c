import SigningKeys.Generator

/-!
# The registry of generators

At most one generator for each kind of key, one of them the default. A registry is built from a list
of registrations; the number of defaults is judged before the kinds are compared. What is asked of a
registry does not depend on the order of the registrations.
-/

namespace SigningKeys

/-- A generator that is put forward, perhaps as the default. -/
structure Registration where
  generator : Generator
  isDefault : Bool

namespace Registration

/-- The kind of key that is put forward. -/
def algorithm (registration : Registration) : Algorithm := registration.generator.algorithm

/-- The kinds of the registrations that are put forward as the default, in order. -/
def marked (registrations : List Registration) : List Algorithm :=
  (registrations.filter (·.isDefault)).map algorithm

/-- A marked kind is registered. -/
theorem exists_generator_of_mem_marked {registrations : List Registration} {algorithm : Algorithm}
    (h : algorithm ∈ marked registrations) :
    ∃ generator ∈ registrations.map Registration.generator, generator.algorithm = algorithm := by
  obtain ⟨registration, member, rfl⟩ := List.mem_map.1 h
  exact ⟨_, List.mem_map_of_mem (List.mem_filter.1 member).1, rfl⟩

end Registration

/-- The first element that equals one before it, or one that was seen earlier. -/
def firstRepeated? (seen : List Algorithm) : List Algorithm → Option Algorithm
  | [] => none
  | algorithm :: rest =>
      if algorithm ∈ seen then some algorithm else firstRepeated? (algorithm :: seen) rest

/-- Without a repeated element the list has no duplicates and shares none with those seen. -/
theorem firstRepeated?_eq_none_iff {seen algorithms : List Algorithm} :
    firstRepeated? seen algorithms = none ↔
      algorithms.Nodup ∧ ∀ algorithm ∈ algorithms, algorithm ∉ seen := by
  induction algorithms generalizing seen with
  | nil => simp [firstRepeated?]
  | cons algorithm rest ih =>
      by_cases h : algorithm ∈ seen
      · simp [firstRepeated?, h]
      · simp only [firstRepeated?, h, if_false, ih, List.nodup_cons, List.mem_cons, not_or]
        constructor
        · rintro ⟨nodup, fresh⟩
          refine ⟨⟨fun member ↦ (fresh _ member).1 rfl, nodup⟩, ?_⟩
          rintro other (rfl | member)
          · exact h
          · exact (fresh other member).2
        · rintro ⟨⟨notMem, nodup⟩, fresh⟩
          refine ⟨nodup, fun other member ↦ ⟨?_, fresh other (.inr member)⟩⟩
          rintro rfl
          exact notMem member

/-- Generators of distinct kinds, one of which is the default. -/
structure Registry where
  generators : List Generator
  default : Algorithm
  hasDefault : ∃ generator ∈ generators, generator.algorithm = default
  distinct : (generators.map Generator.algorithm).Nodup

namespace Registry

/-- The registry of the registrations: exactly one must be the default, and no kind of key may be
registered twice. -/
def build (registrations : List Registration) : Except Error Registry :=
  match marked : Registration.marked registrations with
  | [default] =>
      match repeated : firstRepeated? [] (registrations.map Registration.algorithm) with
      | some algorithm => .error (.configuration (.generatorRegisteredTwice algorithm))
      | none =>
          .ok
            { generators := registrations.map Registration.generator
              default := default
              hasDefault := Registration.exists_generator_of_mem_marked (by simp [marked])
              distinct := by
                rw [List.map_map]
                exact (firstRepeated?_eq_none_iff.1 repeated).1 }
  | [] => .error (.configuration .noDefaultGenerator)
  | algorithms => .error (.configuration (.severalDefaultGenerators algorithms))

/-- The generator of a kind of key, if there is one. -/
def find? (registry : Registry) (algorithm : Algorithm) : Option Generator :=
  registry.generators.find? (·.algorithm = algorithm)

/-- The generator of a kind of key. -/
def resolve (registry : Registry) (algorithm : Algorithm) : Except Error Generator :=
  match registry.find? algorithm with
  | some generator => .ok generator
  | none => .error (.unsupportedAlgorithm algorithm.tag)

/-- The default kind of key has a generator. -/
theorem isSome_find?_default (registry : Registry) : (registry.find? registry.default).isSome := by
  simpa [find?] using registry.hasDefault

/-- The generator of the default kind of key. -/
def defaultGenerator (registry : Registry) : Generator :=
  (registry.find? registry.default).get registry.isSome_find?_default

/-- The kinds of key that have a generator, sorted by their tags. -/
def algorithms (registry : Registry) : List Algorithm :=
  (registry.generators.map Generator.algorithm).mergeSort Algorithm.tagLe

end Registry

end SigningKeys
