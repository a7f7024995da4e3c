import SigningKeys.Proofs.Rotation.Course

/-!
# What a failed rotation leaves behind

A rotation that ends with an error has changed nothing, or has retired the active key and no more.
The main statement, `Rotation.failure_changes_little`, says so of every store, also of one with
repeated ids or several active keys. It names the error in each case (`Rotation.Hindrance` before
anything is written), and says which stores no rotation writes to (`Rotation.Blocked`).
-/

namespace SigningKeys.Rotation

/-- Why a rotation ends before it writes anything: the store is not listed; it has several active
keys; the next rotation of the active one is no instant; or a new key is due, and the default
generator hands out no pair or one that cannot be written. The error is the one of the call that
failed. -/
inductive Hindrance (rotation : Rotation) (store : Store) : Error → Prop where
  | unlisted (error) :
      rotation.faults.listing = some error →
      Hindrance rotation store error
  | several :
      rotation.faults.listing = none →
      2 ≤ store.active.length →
      Hindrance rotation store (.general .severalActiveKeys)
  | undated (current) :
      rotation.faults.listing = none →
      store.active = [current] →
      current.createdAt.shift? rotation.rotator.strategy.seconds = none →
      Hindrance rotation store (.configuration (.rotationTime current.keyId))
  | unavailable (current error) :
      rotation.faults.listing = none →
      rotation.rotator.strategy.Due rotation.conditions.now store current →
      rotation.rotator.registry.defaultGenerator.generate rotation.conditions.draw.entropy =
        .error error →
      Hindrance rotation store error
  | unwritable (current pair error) :
      rotation.faults.listing = none →
      rotation.rotator.strategy.Due rotation.conditions.now store current →
      rotation.rotator.registry.defaultGenerator.generate rotation.conditions.draw.entropy =
        .ok pair →
      pair.encode = .error error →
      Hindrance rotation store error

/-- The rotation cannot come to write anything to the store: the store has several active keys, or
one whose next rotation is no instant, or no new record is issued. -/
inductive Blocked (rotation : Rotation) (store : Store) : Prop where
  | several :
      2 ≤ store.active.length →
      Blocked rotation store
  | undated (current) :
      store.active = [current] →
      current.createdAt.shift? rotation.rotator.strategy.seconds = none →
      Blocked rotation store
  | unissued (error) :
      rotation.rotator.registry.issue rotation.conditions.draw = .error error →
      Blocked rotation store

variable {rotation : Rotation} {store : Store}

/-! ## One rotation -/

/-- A new record that is not issued is a hindrance, with the error of its making. -/
theorem hindrance_of_issue {current : Option Record} {error : Error}
    (hlisting : rotation.faults.listing = none)
    (hdue : rotation.rotator.strategy.Due rotation.conditions.now store current)
    (herror : rotation.rotator.registry.issue rotation.conditions.draw = .error error) :
    rotation.Hindrance store error := by
  rcases Registry.issue_eq_error_iff.1 herror with hgenerate | ⟨pair, hpair, htexts⟩
  · exact .unavailable current error hlisting hdue hgenerate
  · exact .unwritable current pair error hlisting hdue hpair htexts

/-- A rotation that fails was hindered before it wrote anything; or its first write failed; or it
retired the only active key, and the write of the new one failed. -/
theorem of_error {error : Error} (h : (rotation.transcript store).result = .error error) :
    (rotation.Hindrance store error ∧ (rotation.transcript store).writes = [] ∧
        (rotation.transcript store).store = store) ∨
      (∃ record, rotation.faults.firstWrite = some error ∧
        (rotation.transcript store).writes = [⟨record, false⟩] ∧
        (rotation.transcript store).store = store) ∨
      ∃ current fresh, rotation.faults.secondWrite = some error ∧ store.active = [current] ∧
        (rotation.transcript store).writes = [⟨current.retired, true⟩, ⟨fresh, false⟩] ∧
        (rotation.transcript store).store = store.put current.retired := by
  have hcourse := rotation.transcript_course store
  generalize rotation.transcript store = transcript at hcourse h ⊢
  cases hcourse with
  | kept | opened | replaced => cases h
  | unlisted other hlisting =>
      cases h
      exact .inl ⟨.unlisted error hlisting, rfl, rfl⟩
  | several hlisting hlength =>
      cases h
      exact .inl ⟨.several hlisting hlength, rfl, rfl⟩
  | undated current hlisting hactive hshift =>
      cases h
      exact .inl ⟨.undated current hlisting hactive hshift, rfl, rfl⟩
  | unissued current other hlisting hdue hissue =>
      cases h
      exact .inl ⟨hindrance_of_issue hlisting hdue hissue, rfl, rfl⟩
  | unopened fresh other _ _ _ hfirst =>
      cases h
      exact .inr (.inl ⟨fresh, hfirst, rfl, rfl⟩)
  | unretired current fresh other _ _ _ hfirst =>
      cases h
      exact .inr (.inl ⟨current.retired, hfirst, rfl, rfl⟩)
  | unpublished current fresh other _ hdue _ _ hsecond =>
      cases h
      obtain - | ⟨_, next, hactive, -, -⟩ := hdue
      exact .inr (.inr ⟨current, fresh, hsecond, hactive, rfl, rfl⟩)

/-- A rotation that attempts no write leaves the store alone; one that attempts a write found a new
key due and was issued it. -/
theorem store_eq_or_issued (rotation : Rotation) (store : Store) :
    (rotation.transcript store).writes = [] ∧ (rotation.transcript store).store = store ∨
      ∃ current fresh, rotation.rotator.strategy.Due rotation.conditions.now store current ∧
        rotation.rotator.registry.issue rotation.conditions.draw = .ok fresh := by
  have hcourse := rotation.transcript_course store
  generalize rotation.transcript store = transcript at hcourse ⊢
  cases hcourse with
  | unlisted | several | undated | kept | unissued => exact .inl ⟨rfl, rfl⟩
  | unopened fresh _ _ hdue hissue | opened fresh _ hdue hissue =>
      exact .inr ⟨none, fresh, hdue, hissue⟩
  | unretired current fresh _ _ hdue hissue | unpublished current fresh _ _ hdue hissue
  | replaced current fresh _ hdue hissue => exact .inr ⟨some current, fresh, hdue, hissue⟩

/-- A rotation that cannot come to write attempts no write and leaves the store alone. -/
theorem Blocked.store_eq (h : rotation.Blocked store) :
    (rotation.transcript store).writes = [] ∧ (rotation.transcript store).store = store := by
  refine (rotation.store_eq_or_issued store).resolve_right ?_
  rintro ⟨current, fresh, hdue, hissue⟩
  cases h with
  | several hlength => cases hdue <;> simp_all
  | undated other hactive hshift =>
      cases hdue with
      | vacant hnone => simp [hnone] at hactive
      | overdue current next hone hnext =>
          rw [hone] at hactive
          cases hactive
          exact absurd hnext (Strategy.nextRotation_ne_ok hshift next)
  | unissued error herror =>
      rw [hissue] at herror
      cases herror

/-! ## Any number of rotations -/

/-- However many rotations follow one another that cannot come to write, none attempts a write, and
each leaves the store alone. -/
theorem attempts_of_blocked {rotations : List Rotation}
    (h : ∀ rotation ∈ rotations, rotation.Blocked store) :
    ∀ attempt ∈ attempts store rotations,
      attempt.transcript.writes = [] ∧ attempt.transcript.store = store := by
  induction rotations with
  | nil => simp [attempts]
  | cons rotation rest ih =>
      have hfirst := (h rotation List.mem_cons_self).store_eq
      have hrest := ih fun later hmem ↦ h later (List.mem_cons_of_mem rotation hmem)
      intro attempt hmem
      rw [attempts, hfirst.2, List.mem_cons] at hmem
      rcases hmem with rfl | hmem
      · exact hfirst
      · exact hrest attempt hmem

/-- On any store, a rotation that ends with an error leaves the store as it was, unless it retired
the only active key and then failed to write the new one. The error is that several keys are active,
that the next rotation is no instant, or the one of the call that failed. Rotations that find
several active keys, a next rotation that is no instant, or nothing issued, attempt no write and
leave the store as it was, however many of them follow one another. -/
theorem failure_changes_little (rotation : Rotation) (store : Store) :
    (∀ error, (rotation.transcript store).result = .error error →
      (rotation.Hindrance store error ∧ (rotation.transcript store).writes = [] ∧
          (rotation.transcript store).store = store) ∨
        (∃ record, rotation.faults.firstWrite = some error ∧
          (rotation.transcript store).writes = [⟨record, false⟩] ∧
          (rotation.transcript store).store = store) ∨
        ∃ current fresh, rotation.faults.secondWrite = some error ∧ store.active = [current] ∧
          (rotation.transcript store).writes = [⟨current.retired, true⟩, ⟨fresh, false⟩] ∧
          (rotation.transcript store).store = store.put current.retired) ∧
    ∀ rotations : List Rotation, (∀ later ∈ rotations, later.Blocked store) →
      ∀ attempt ∈ attempts store rotations,
        attempt.transcript.writes = [] ∧ attempt.transcript.store = store :=
  ⟨fun _ ↦ of_error, fun _ ↦ attempts_of_blocked⟩

/-- A rotation that fails between its writes, and rotations of a store with two active keys. -/
theorem failure_changes_little_half_done :
    let error : Error := .general .severalActiveKeys
    let rotation : Rotation := ⟨.small, .small "first" 3600 (by decide), none, none, some error⟩
    let store : Store := ⟨[.small]⟩
    let double : Store := ⟨[.small, { Record.small with keyId := "other" }]⟩
    (rotation.transcript store).result = .error error ∧
      ((rotation.Hindrance store error ∧ (rotation.transcript store).writes = [] ∧
          (rotation.transcript store).store = store) ∨
        (∃ record, rotation.faults.firstWrite = some error ∧
          (rotation.transcript store).writes = [⟨record, false⟩] ∧
          (rotation.transcript store).store = store) ∨
        ∃ current fresh, rotation.faults.secondWrite = some error ∧ store.active = [current] ∧
          (rotation.transcript store).writes = [⟨current.retired, true⟩, ⟨fresh, false⟩] ∧
          (rotation.transcript store).store = store.put current.retired) ∧
      (∀ later ∈ [rotation, rotation], later.Blocked double) ∧
      ∀ attempt ∈ attempts double [rotation, rotation],
        attempt.transcript.writes = [] ∧ attempt.transcript.store = double := by
  intro error rotation store double
  have hfailed : (rotation.transcript store).result = .error error := by decide +kernel
  have hblocked : ∀ later ∈ [rotation, rotation], later.Blocked double :=
    fun later _ ↦ .several (by decide)
  exact ⟨hfailed, (failure_changes_little rotation store).1 error hfailed, hblocked,
    (failure_changes_little rotation double).2 [rotation, rotation] hblocked⟩

end SigningKeys.Rotation
