import SmartTest.Run.RepositorySpec

/-!
# The attempts of a run, in the order they were begun

The attempt table keeps insertion order, so the attempts of a run stand in it in the order
of their `begin_attempt`, and the last one is the run's current attempt.
-/

open SmartTest.Lib

namespace SmartTest.Run.RunRepository

/-- The entries of the attempt table that belong to a run. -/
def entriesOf (attempts : Dict UUID AttemptRecord) (runId : UUID) : List (UUID × AttemptRecord) :=
  attempts.entries.filter (·.2.runId = runId)

/-- The attempt of a run that was begun last. -/
def current (attempts : Dict UUID AttemptRecord) (runId : UUID) : Option (UUID × AttemptRecord) :=
  (entriesOf attempts runId).getLast?

variable {attempts : Dict UUID AttemptRecord} {runId attemptId : UUID}

theorem attemptsOf_eq (repo : RunRepository) (runId : UUID) :
    repo.attemptsOf runId = (entriesOf repo.attempts runId).map Prod.snd := by
  simp only [attemptsOf, entriesOf, Dict.values, List.filter_map]
  rfl

theorem mem_entriesOf {e : UUID × AttemptRecord} :
    e ∈ entriesOf attempts runId ↔ attempts.get? e.1 = some e.2 ∧ e.2.runId = runId := by
  simp [entriesOf, Dict.get?_eq_some_iff]

theorem entriesOf_nodup (attempts : Dict UUID AttemptRecord) (runId : UUID) :
    ((entriesOf attempts runId).map Prod.fst).Nodup :=
  attempts.nodup.sublist (List.filter_sublist.map Prod.fst)

theorem mem_of_current {e : UUID × AttemptRecord} (h : current attempts runId = some e) :
    e ∈ entriesOf attempts runId := List.mem_of_getLast? h

/-! ## A new attempt -/

theorem entriesOf_set_new {attempt : AttemptRecord} (hnew : attempts.get? attemptId = none) (r : UUID) :
    entriesOf (attempts.set attemptId attempt) r =
      entriesOf attempts r ++ if attempt.runId = r then [(attemptId, attempt)] else [] := by
  simp only [entriesOf, Dict.entries_set_new _ _ _ hnew, List.filter_append]
  split <;> simp_all

theorem current_set_new {attempt : AttemptRecord} (hnew : attempts.get? attemptId = none) (r : UUID) :
    current (attempts.set attemptId attempt) r =
      if attempt.runId = r then some (attemptId, attempt) else current attempts r := by
  simp only [current, entriesOf_set_new hnew]
  split <;> simp

/-! ## A new record of an old attempt -/

/-- The entry an update of one attempt puts in the place of another. -/
def replaced (attemptId : UUID) (attempt : AttemptRecord) (e : UUID × AttemptRecord) :
    UUID × AttemptRecord :=
  if e.1 = attemptId then (attemptId, attempt) else e

theorem entriesOf_set_old {old new : AttemptRecord} (hold : attempts.get? attemptId = some old)
    (hrun : new.runId = old.runId) (r : UUID) :
    entriesOf (attempts.set attemptId new) r = (entriesOf attempts r).map (replaced attemptId new) := by
  simp only [entriesOf, Dict.entries_set_old _ _ _ _ hold, List.filter_map]
  congr 1
  apply List.filter_congr
  intro e he
  simp only [Function.comp_apply, decide_eq_decide]
  split
  · next hkey =>
    have hval : attempts.get? attemptId = some e.2 := by
      rw [Dict.get?_eq_some_iff, ← hkey]
      exact he
    rw [hold] at hval
    cases hval
    rw [hrun]
  · rfl

theorem current_set_old {old new : AttemptRecord} (hold : attempts.get? attemptId = some old)
    (hrun : new.runId = old.runId) (r : UUID) :
    current (attempts.set attemptId new) r = (current attempts r).map (replaced attemptId new) := by
  simp only [current, entriesOf_set_old hold hrun, List.getLast?_map]

end SmartTest.Run.RunRepository
