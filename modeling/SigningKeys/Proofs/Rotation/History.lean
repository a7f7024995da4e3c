import SigningKeys.Proofs.Rotation.Calls

/-!
# Histories of a store

A store over time, as rotations run on it one after the other and other hands remove records,
change their times or write retired ones in between. `history` lists every moment, those between
two calls of one rotation included. The main statement, `history_orderly`, says that a store whose
ids are distinct and that has at most one active key stays so at every moment, whatever fails.
-/

namespace SigningKeys

/-- A store at some moment, and the records that rotations have added to it so far, in order. -/
structure Moment where
  store : Store
  stored : List Record

/-- What happens to a store as a whole: a rotation, or a change by other hands. -/
inductive Happening where
  | rotate (rotation : Rotation)
  | remove (keyId : String)
  | redate (keyId : String) (createdAt : Instant)
  | put (record : Record) (retired : record.status = .retired)

namespace Happening

/-- The moments after each call to the store. -/
def moments (moment : Moment) : Happening → List Moment
  | .rotate rotation =>
      (rotation.states moment.store).map fun (store, stage) ↦
        ⟨store, moment.stored ++ stage.stored?.toList⟩
  | .remove keyId => [⟨moment.store.remove keyId, moment.stored⟩]
  | .redate keyId createdAt => [⟨moment.store.redate keyId createdAt, moment.stored⟩]
  | .put record _ => [⟨moment.store.put record, moment.stored⟩]

/-- The moment at the end. -/
def outcome (moment : Moment) : Happening → Moment
  | .rotate rotation =>
      let transcript := rotation.transcript moment.store
      ⟨transcript.store, moment.stored ++ (Stage.finished transcript.result).stored?.toList⟩
  | .remove keyId => ⟨moment.store.remove keyId, moment.stored⟩
  | .redate keyId createdAt => ⟨moment.store.redate keyId createdAt, moment.stored⟩
  | .put record _ => ⟨moment.store.put record, moment.stored⟩

/-- The id that a rotation draws for a new record is not stored. -/
def DrawsFresh (store : Store) : Happening → Prop
  | .rotate rotation => rotation.DrawsFresh store
  | _ => True

/-- The end is the last of the moments. -/
theorem outcome_mem_moments (happening : Happening) (moment : Moment) :
    happening.outcome moment ∈ happening.moments moment := by
  cases happening with
  | rotate rotation =>
      exact List.mem_map.2 ⟨_, rotation.outcome_mem_states moment.store, rfl⟩
  | remove | redate | put => exact List.mem_singleton_self _

end Happening

/-- Every moment while the happenings follow one another, from the given one on. -/
def history (moment : Moment) : List Happening → List Moment
  | [] => [moment]
  | happening :: rest =>
      moment :: (happening.moments moment ++ history (happening.outcome moment) rest)

/-- Whenever a rotation draws an id for a new record, the id is not stored at that moment. -/
def DrawFresh (moment : Moment) : List Happening → Prop
  | [] => True
  | happening :: rest =>
      happening.DrawsFresh moment.store ∧ DrawFresh (happening.outcome moment) rest

/-- What every happening keeps at each of its moments holds throughout a history. -/
theorem history_induction {P : Moment → Prop} {happenings : List Happening} {start : Moment}
    (hkeep : ∀ happening ∈ happenings, ∀ moment, happening.DrawsFresh moment.store → P moment →
      ∀ later ∈ happening.moments moment, P later)
    (hdraw : DrawFresh start happenings) (hstart : P start) :
    ∀ moment ∈ history start happenings, P moment := by
  induction happenings generalizing start with
  | nil => simpa [history] using hstart
  | cons happening rest ih =>
      obtain ⟨hfirst, hrest⟩ := hdraw
      have hmoments := hkeep happening (by simp) start hfirst hstart
      have hlater := ih (fun next hmem ↦ hkeep next (by simp [hmem])) hrest
        (hmoments _ (happening.outcome_mem_moments start))
      intro moment hmem
      rw [history, List.mem_cons, List.mem_append] at hmem
      rcases hmem with rfl | hmem | hmem
      · exact hstart
      · exact hmoments moment hmem
      · exact hlater moment hmem

/-- No happening disturbs an orderly store, at any of its moments. -/
theorem Happening.moments_orderly {happening : Happening} {moment : Moment}
    (hdraw : happening.DrawsFresh moment.store) (horderly : moment.store.IsOrderly) :
    ∀ later ∈ happening.moments moment, later.store.IsOrderly := by
  cases happening with
  | rotate rotation =>
      intro later hmem
      obtain ⟨state, hstate, rfl⟩ := List.mem_map.1 hmem
      exact rotation.states_orderly horderly hdraw state hstate
  | remove keyId => simpa [moments] using horderly.remove keyId
  | redate keyId createdAt => simpa [moments] using horderly.redate keyId createdAt
  | put record hretired =>
      simpa [moments] using horderly.put_retired (by simp [Record.isActive, hretired])

/-- At every moment of a history the ids are distinct and at most one record is active, if that is
so at first and the ids of new records are new. -/
theorem history_orderly {store : Store} {happenings : List Happening}
    (distinct : store.keyIds.Nodup) (atMostOne : store.active.length ≤ 1)
    (hdraw : DrawFresh ⟨store, []⟩ happenings) :
    ∀ moment ∈ history ⟨store, []⟩ happenings,
      moment.store.keyIds.Nodup ∧ moment.store.active.length ≤ 1 := by
  have horderly := history_induction (P := fun moment ↦ moment.store.IsOrderly)
    (fun happening _ moment hfresh ↦ happening.moments_orderly hfresh) hdraw ⟨distinct, atMostOne⟩
  exact fun moment hmem ↦ ⟨(horderly moment hmem).distinct, (horderly moment hmem).atMostOne⟩

/-- A rotation that fails between its writes, a retired record written by other hands, a rotation
that succeeds, and the removal of the first key: every moment is orderly. -/
theorem history_orderly_interrupted :
    let store : Store := ⟨[.small]⟩
    let happenings : List Happening :=
      [.rotate ⟨.small, .small "first" 3600 (by decide), none, none,
          some (.general .severalActiveKeys)⟩,
        .put { Record.small with keyId := "foreign", status := .retired } rfl,
        .rotate ⟨.small, .small "second" 7200 (by decide), none, none, none⟩, .remove "small"]
    store.keyIds.Nodup ∧ store.active.length ≤ 1 ∧ DrawFresh ⟨store, []⟩ happenings ∧
      ∀ moment ∈ history ⟨store, []⟩ happenings,
        moment.store.keyIds.Nodup ∧ moment.store.active.length ≤ 1 := by
  intro store happenings
  have distinct : store.keyIds.Nodup := by decide
  have atMostOne : store.active.length ≤ 1 := by decide
  have hdraw : DrawFresh ⟨store, []⟩ happenings :=
    ⟨Rotation.drawsFresh_of_keyId (by decide +kernel), trivial,
      Rotation.drawsFresh_of_keyId (by decide +kernel), trivial, trivial⟩
  exact ⟨distinct, atMostOne, hdraw, history_orderly distinct atMostOne hdraw⟩

end SigningKeys
