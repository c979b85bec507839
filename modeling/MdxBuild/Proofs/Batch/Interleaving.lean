import Mathlib.Logic.Function.Basic
import Mathlib.Logic.Relation
import MdxBuild.Proofs.Batch.Lowering
import MdxBuild.Trial.Routine

/-!
# Workers and the collector side by side

The workers of a batch run side by side, each with a channel of its own, while a collector asks them
for their reports in order and waits for none of them longer than until the deadline of the batch.
Here a batch is taken apart into the steps of its workers and of the collector, which happen in any
order. A worker may also never take another step. What a batch ends with depends on what the
collector finds out of each worker and on nothing else: it is the outcome of `lower` for these
fates, and all combinations of fates occur.
-/

namespace MdxBuild.Batch

/-- What a worker is doing. -/
inductive Worker where
  /-- It has a report on the jobs so far and has others left. -/
  | busy (report : WorkerReport) (left : List LoweringJob)
  /-- Its report is in its channel. -/
  | sent (report : WorkerReport)
  /-- It has ended without a report. -/
  | ended
  /-- It could not be started. -/
  | refused (error : Text)

/-- A batch while it is lowered. -/
structure Progress where
  worker : (group : Nat) → Worker
  /-- The deadline has passed. -/
  expired : Bool
  /-- What the collector has found out so far, from the first group on. -/
  fates : List WorkerFate
  outcomes : Outcomes

namespace Progress

/-- A batch at its start. Some workers are refused, the others have all of their jobs left. -/
def start (refusal? : (group : Nat) → Option Text) (groups : List (List LoweringJob)) :
    Progress where
  worker group :=
    match refusal? group with
    | some error => .refused error
    | none => .busy {} (groups.getD group [])
  expired := false
  fates := []
  outcomes := .empty

/-- The batch after a worker has gone on. -/
def setWorker (progress : Progress) (group : Nat) (worker : Worker) : Progress :=
  { progress with worker := Function.update progress.worker group worker }

@[simp]
theorem worker_setWorker_self (progress : Progress) (group : Nat) (worker : Worker) :
    (progress.setWorker group worker).worker group = worker :=
  Function.update_self ..

theorem worker_setWorker_of_ne (progress : Progress) {group other : Nat} (differs : other ≠ group)
    (worker : Worker) : (progress.setWorker group worker).worker other = progress.worker other :=
  Function.update_of_ne differs ..

@[simp]
theorem setWorker_setWorker (progress : Progress) (group : Nat) (first second : Worker) :
    (progress.setWorker group first).setWorker group second = progress.setWorker group second := by
  simp only [setWorker, Function.update_idem]

/-- The batch after its deadline has passed. -/
def expire (progress : Progress) : Progress :=
  { progress with expired := true }

@[simp]
theorem expired_expire (progress : Progress) : progress.expire.expired = true :=
  rfl

/-- The batch after the collector has found out what becomes of the next worker. -/
def take (progress : Progress) (fate : WorkerFate) (jobs : List LoweringJob)
    (received : Except Text WorkerReport) : Progress :=
  { progress with
    fates := progress.fates ++ [fate]
    outcomes := receive progress.fates.length jobs received progress.outcomes }

@[simp]
theorem fates_take (progress : Progress) (fate : WorkerFate) (jobs : List LoweringJob)
    (received : Except Text WorkerReport) :
    (progress.take fate jobs received).fates = progress.fates ++ [fate] :=
  rfl

/-- The collector is through with all groups. -/
def Finished (groups : List (List LoweringJob)) (progress : Progress) : Prop :=
  progress.fates.length = groups.length

/-- What the collector has found out of the worker of a group. -/
def fate (progress : Progress) (group : Nat) (_ : List LoweringJob) : WorkerFate :=
  progress.fates.getD group .late

end Progress

/-- What the collector can find out of a worker whose report it does not get. It gives a busy worker
up only when the deadline has passed. -/
inductive Missing (expired : Bool) : Worker → WorkerFate → Prop
  | late {report : WorkerReport} {left : List LoweringJob} (passed : expired = true) :
      Missing expired (.busy report left) .late
  | died : Missing expired .ended .died
  | refused {error : Text} : Missing expired (.refused error) (.refused error)

/-- A step of a worker, of the clock or of the collector. -/
inductive Step (options : LoweringOptions) (routine : LoweringRoutine)
    (groups : List (List LoweringJob)) : Progress → Progress → Prop
  | lowered {progress : Progress} {group : Nat} {report : WorkerReport} {job : LoweringJob}
      {left : List LoweringJob} (busy : progress.worker group = .busy report (job :: left)) :
      Step options routine groups progress
        (progress.setWorker group (.busy (report.add job.jobId (routine options job)) left))
  | sent {progress : Progress} {group : Nat} {report : WorkerReport}
      (busy : progress.worker group = .busy report []) :
      Step options routine groups progress (progress.setWorker group (.sent report))
  | died {progress : Progress} {group : Nat} {report : WorkerReport} {left : List LoweringJob}
      (busy : progress.worker group = .busy report left) :
      Step options routine groups progress (progress.setWorker group .ended)
  | expired (progress : Progress) :
      Step options routine groups progress progress.expire
  | received {progress : Progress} {jobs : List LoweringJob} {report : WorkerReport}
      (isGroup : groups[progress.fates.length]? = some jobs)
      (sent : progress.worker progress.fates.length = .sent report) :
      Step options routine groups progress (progress.take .reported jobs (.ok report))
  | missed {progress : Progress} {jobs : List LoweringJob} {fate : WorkerFate} {reason : Text}
      (isGroup : groups[progress.fates.length]? = some jobs)
      (missing : Missing progress.expired (progress.worker progress.fates.length) fate)
      (because : failureReason options fate = some reason) :
      Step options routine groups progress (progress.take fate jobs (.error reason))

/-- Any number of steps. -/
def Steps (options : LoweringOptions) (routine : LoweringRoutine)
    (groups : List (List LoweringJob)) : Progress → Progress → Prop :=
  Relation.ReflTransGen (Step options routine groups)

variable {options : LoweringOptions} {routine : LoweringRoutine}
  {groups : List (List LoweringJob)} {progress after : Progress}

/-! ## What steps preserve -/

/-- What a worker has reported is about the jobs that it is through with. -/
def Worker.Serves (options : LoweringOptions) (routine : LoweringRoutine)
    (jobs : List LoweringJob) : Worker → Prop
  | .busy sofar left => ∃ done, jobs = done ++ left ∧ sofar = report options routine done
  | .sent sofar => sofar = report options routine jobs
  | .ended => True
  | .refused _ => True

/-- Workers report on their own groups, and going on from the outcomes so far gives what collecting
from the start gives, for all fates that agree with those found out so far. -/
structure Consistent (options : LoweringOptions) (routine : LoweringRoutine)
    (groups : List (List LoweringJob)) (progress : Progress) : Prop where
  serves : ∀ {group jobs}, groups[group]? = some jobs →
    (progress.worker group).Serves options routine jobs
  within : progress.fates.length ≤ groups.length
  collected : ∀ fate : Nat → List LoweringJob → WorkerFate,
    (∀ group found, progress.fates[group]? = some found → ∀ jobs, fate group jobs = found) →
    collect options routine fate progress.fates.length progress.outcomes
        (groups.drop progress.fates.length) =
      collect options routine fate 0 .empty groups

namespace Consistent

theorem start (refusal? : Nat → Option Text) :
    Consistent options routine groups (.start refusal? groups) where
  serves {group jobs} isGroup := by
    simp only [Progress.start]
    cases refusal? group with
    | some error => trivial
    | none => exact ⟨[], by rw [List.getD_eq_getElem?_getD, isGroup]; rfl, rfl⟩
  within := Nat.zero_le _
  collected _ _ := rfl

theorem setWorker (consistent : Consistent options routine groups progress) {group : Nat}
    {worker : Worker}
    (serves : ∀ {jobs}, groups[group]? = some jobs → worker.Serves options routine jobs) :
    Consistent options routine groups (progress.setWorker group worker) where
  serves {other jobs} isGroup := by
    by_cases same : other = group
    · subst same
      rw [Progress.worker_setWorker_self]
      exact serves isGroup
    · rw [Progress.worker_setWorker_of_ne _ same]
      exact consistent.serves isGroup
  within := consistent.within
  collected := consistent.collected

theorem take (consistent : Consistent options routine groups progress) {fate : WorkerFate}
    {jobs : List LoweringJob} (isGroup : groups[progress.fates.length]? = some jobs) :
    Consistent options routine groups
      (progress.take fate jobs (received options routine fate jobs)) where
  serves := consistent.serves
  within := by
    rw [Progress.fates_take, List.length_append, List.length_singleton]
    exact (List.getElem?_eq_some_iff.mp isGroup).1
  collected fates agree := by
    have found : fates progress.fates.length jobs = fate :=
      agree _ _ (by simp) jobs
    have before : ∀ group found, progress.fates[group]? = some found →
        ∀ jobs, fates group jobs = found := by
      intro group found isFate
      refine agree group found ?_
      rw [Progress.fates_take, List.getElem?_append_left (List.getElem?_eq_some_iff.mp isFate).1]
      exact isFate
    have rest : groups.drop progress.fates.length =
        jobs :: groups.drop (progress.fates.length + 1) := by
      obtain ⟨inRange, rfl⟩ := List.getElem?_eq_some_iff.mp isGroup
      exact List.drop_eq_getElem_cons inRange
    rw [← consistent.collected fates before, rest, collect, found, Progress.take,
      List.length_append, List.length_singleton]

/-- Each step preserves that a batch is consistent. -/
theorem step (consistent : Consistent options routine groups progress)
    (step : Step options routine groups progress after) :
    Consistent options routine groups after := by
  cases step with
  | @lowered group _ job _ busy =>
    refine consistent.setWorker fun isGroup => ?_
    obtain ⟨done, isDone, sofar⟩ : Worker.Serves _ _ _ (.busy _ _) :=
      busy ▸ consistent.serves isGroup
    refine ⟨done ++ [job], ?_, ?_⟩
    · rw [isDone, List.append_assoc, List.singleton_append]
    · rw [sofar, report_snoc]
  | sent busy =>
    refine consistent.setWorker fun isGroup => ?_
    obtain ⟨done, isDone, sofar⟩ : Worker.Serves _ _ _ (.busy _ _) :=
      busy ▸ consistent.serves isGroup
    rw [isDone, List.append_nil]
    exact sofar
  | died busy => exact consistent.setWorker fun _ => trivial
  | expired => exact ⟨consistent.serves, consistent.within, consistent.collected⟩
  | received isGroup sent =>
    obtain rfl : _ = report options routine _ :=
      (sent ▸ consistent.serves isGroup : Worker.Serves _ _ _ (.sent _))
    exact (consistent.take isGroup : Consistent _ _ _ (progress.take .reported _ _))
  | @missed jobs fate reason isGroup missing because =>
    have isReceived : received options routine fate jobs = .error reason := by
      simp only [received, because]
    rw [← isReceived]
    exact consistent.take isGroup

theorem steps (consistent : Consistent options routine groups progress)
    (steps : Steps options routine groups progress after) :
    Consistent options routine groups after := by
  induction steps with
  | refl => exact consistent
  | tail _ step ih => exact ih.step step

end Consistent

/-- The outcomes of a finished batch are those of `lower` for the fates that it has found out. -/
theorem Consistent.outcomes_eq (consistent : Consistent options routine groups progress)
    (finished : progress.Finished groups) :
    progress.outcomes = collect options routine progress.fate 0 .empty groups := by
  have agree : ∀ group found, progress.fates[group]? = some found →
      ∀ jobs, progress.fate group jobs = found := by
    intro group found isFate jobs
    rw [Progress.fate, List.getD_eq_getElem?_getD, isFate, Option.getD_some]
  rw [← consistent.collected progress.fate agree, finished, List.drop_length, collect]

/-! ## How a batch comes to its end -/

section Ends

variable (options : LoweringOptions) (routine : LoweringRoutine)

/-- After the deadline the collector finds something out of the next worker, whatever this is
doing. -/
theorem exists_take_of_expired (expired : progress.expired = true) {jobs : List LoweringJob}
    (isGroup : groups[progress.fates.length]? = some jobs) :
    ∃ fate received, Step options routine groups progress (progress.take fate jobs received) := by
  cases doing : progress.worker progress.fates.length with
  | busy report left => exact ⟨.late, _, .missed isGroup (doing ▸ .late expired) rfl⟩
  | sent report => exact ⟨.reported, _, .received isGroup doing⟩
  | ended => exact ⟨.died, _, .missed isGroup (doing ▸ .died) rfl⟩
  | refused error => exact ⟨.refused error, _, .missed isGroup (doing ▸ .refused) rfl⟩

/-- After the deadline the collector gets through with all groups. -/
theorem exists_finished_of_expired (expired : progress.expired = true)
    (within : progress.fates.length ≤ groups.length) :
    ∃ final, Steps options routine groups progress final ∧ final.Finished groups := by
  induction open_ : groups.length - progress.fates.length generalizing progress with
  | zero => exact ⟨progress, .refl, by rw [Progress.Finished]; omega⟩
  | succ left ih =>
    have inRange : progress.fates.length < groups.length := by omega
    obtain ⟨fate, received, step⟩ := exists_take_of_expired options routine expired
      (List.getElem?_eq_getElem inRange)
    have further : (progress.take fate groups[progress.fates.length] received).fates.length =
        progress.fates.length + 1 := by
      rw [Progress.fates_take, List.length_append, List.length_singleton]
    have stillExpired :
        (progress.take fate groups[progress.fates.length] received).expired = true := expired
    obtain ⟨final, steps, finished⟩ := ih stillExpired (by omega) (by omega)
    exact ⟨final, .head step steps, finished⟩

/-- A worker can go through with its jobs and send its report. -/
theorem exists_sent {group : Nat} {sofar : WorkerReport} {left : List LoweringJob}
    (busy : progress.worker group = .busy sofar left) :
    ∃ report, Steps options routine groups progress (progress.setWorker group (.sent report)) := by
  induction left generalizing progress sofar with
  | nil => exact ⟨sofar, .single (.sent busy)⟩
  | cons job left ih =>
    obtain ⟨report, steps⟩ := ih (progress.worker_setWorker_self group
      (.busy (sofar.add job.jobId (routine options job)) left))
    rw [Progress.setWorker_setWorker] at steps
    exact ⟨report, .head (.lowered busy) steps⟩

/-- The error with which the worker of a group is refused, among fates. -/
def refusalIn? (fates : List WorkerFate) (group : Nat) : Option Text :=
  match fates[group]? with
  | some (.refused error) => some error
  | _ => none

/-- The next worker can come to each fate, without any step of another worker. -/
theorem exists_taken {fates : List WorkerFate} {fate : WorkerFate} {jobs : List LoweringJob}
    (isGroup : groups[progress.fates.length]? = some jobs)
    (isFate : fates[progress.fates.length]? = some fate)
    (fresh : progress.worker progress.fates.length =
      (Progress.start (refusalIn? fates) groups).worker progress.fates.length) :
    ∃ next, Steps options routine groups progress next ∧ next.fates = progress.fates ++ [fate] ∧
      ∀ other ≠ progress.fates.length, next.worker other = progress.worker other := by
  simp only [Progress.start, refusalIn?, isFate] at fresh
  cases fate with
  | reported =>
    obtain ⟨report, steps⟩ := exists_sent options routine fresh
    refine ⟨_, .tail steps (.received isGroup (progress.worker_setWorker_self _ _)), rfl, ?_⟩
    intro other differs
    exact progress.worker_setWorker_of_ne differs _
  | late =>
    have passed : Step options routine groups progress progress.expire := .expired progress
    exact ⟨_, .tail (.single passed) (.missed isGroup (fresh ▸ .late rfl) rfl), rfl,
      fun _ _ => rfl⟩
  | died =>
    have missing : Missing progress.expired
        ((progress.setWorker progress.fates.length .ended).worker progress.fates.length) .died := by
      rw [Progress.worker_setWorker_self]
      exact .died
    refine ⟨_, .tail (.single (.died fresh)) (.missed isGroup missing rfl), rfl, ?_⟩
    · intro other differs
      exact progress.worker_setWorker_of_ne differs _
  | refused error =>
    exact ⟨_, .single (.missed isGroup (fresh ▸ .refused) rfl), rfl, fun _ _ => rfl⟩

/-- All combinations of fates occur. -/
theorem exists_steps_of_fates {fates : List WorkerFate} (same : fates.length = groups.length) :
    ∃ final, Steps options routine groups (.start (refusalIn? fates) groups) final ∧
      final.fates = fates := by
  have upTo : ∀ count ≤ fates.length, ∃ next,
      Steps options routine groups (.start (refusalIn? fates) groups) next ∧
        next.fates = fates.take count ∧ ∀ group, count ≤ group →
          next.worker group = (Progress.start (refusalIn? fates) groups).worker group := by
    intro count within
    induction count with
    | zero => exact ⟨_, .refl, rfl, fun _ _ => rfl⟩
    | succ count ih =>
      obtain ⟨next, steps, found, fresh⟩ := ih (by omega)
      have reached : next.fates.length = count := by
        rw [found, List.length_take]
        omega
      have isFate : fates[next.fates.length]? = some fates[count] := by
        rw [reached]
        exact List.getElem?_eq_getElem within
      have isGroup : groups[next.fates.length]? = some groups[count] := by
        rw [reached]
        exact List.getElem?_eq_getElem (same ▸ within)
      obtain ⟨final, later, isFound, others⟩ :=
        exists_taken options routine isGroup isFate (fresh _ (Nat.le_of_eq reached.symm))
      refine ⟨final, .trans steps later, ?_, ?_⟩
      · rw [isFound, found, List.take_add_one, List.getElem?_eq_getElem within,
          Option.toList_some]
      · intro group beyond
        rw [others group (by omega), fresh group (by omega)]
  obtain ⟨final, steps, found, -⟩ := upTo fates.length (Nat.le_refl _)
  exact ⟨final, steps, by rw [found, List.take_length]⟩

end Ends

/-! ## What a batch ends with -/

section Batches

variable {workers : Nat} {jobs : List LoweringJob} {refusal? : Nat → Option Text}

/-- A batch of jobs can come to a state. -/
def Reaches (options : LoweringOptions) (routine : LoweringRoutine) (workers : Nat)
    (jobs : List LoweringJob) (refusal? : Nat → Option Text) (progress : Progress) : Prop :=
  Steps options routine (partition jobs (max workers 1))
    (.start refusal? (partition jobs (max workers 1))) progress

/-- The collector is through with all groups of a batch. -/
def Ended (workers : Nat) (jobs : List LoweringJob) (progress : Progress) : Prop :=
  progress.Finished (partition jobs (max workers 1))

theorem outcomes_eq_lower (reaches : Reaches options routine workers jobs refusal? progress)
    (ended : Ended workers jobs progress) :
    progress.outcomes = lower options workers routine progress.fate jobs :=
  ((Consistent.start refusal?).steps reaches).outcomes_eq ended

/-- If ids are distinct, then an ended batch has for a job what becomes of it with the fate of the
worker of its group. -/
theorem find?_of_ended (reaches : Reaches options routine workers jobs refusal? progress)
    (ended : Ended workers jobs progress) (distinct : (jobs.map LoweringJob.jobId).Nodup)
    {group : Nat} {members : List LoweringJob} {job : LoweringJob} {fate : WorkerFate}
    (isGroup : (partition jobs (max workers 1))[group]? = some members) (member : job ∈ members)
    (isFate : progress.fates[group]? = some fate) :
    progress.outcomes.find? job.jobId = some (outcomeIn options routine group fate job) := by
  rw [outcomes_eq_lower reaches ended, find?_lower_of_nodup distinct isGroup member,
    Progress.fate, List.getD_eq_getElem?_getD, isFate, Option.getD_some]

/-- Whatever its workers do and in whatever order, a batch can always come to its end. It then has
outcomes for the ids of its jobs and for no other ones. If ids are distinct, each job has what the
routine returns for it, if the collector got the report of its group, and else the failure of this
group; so nothing counts that happens in another group or to another job. -/
theorem outcomes_of_reaches (reaches : Reaches options routine workers jobs refusal? progress) :
    (∃ final, Steps options routine (partition jobs (max workers 1)) progress final ∧
      Ended workers jobs final) ∧
    (Ended workers jobs progress →
      progress.outcomes = lower options workers routine progress.fate jobs ∧
      (∀ id, id ∈ progress.outcomes.keys ↔ ∃ job ∈ jobs, job.jobId = id) ∧
      (partition jobs (max workers 1)).flatten = jobs ∧
      ((jobs.map LoweringJob.jobId).Nodup → ∀ group members fate,
        (partition jobs (max workers 1))[group]? = some members →
        progress.fates[group]? = some fate → ∀ job ∈ members,
          (fate = .reported →
            progress.outcomes.find? job.jobId = some (routine options job)) ∧
          (∀ reason, failureReason options fate = some reason →
            progress.outcomes.find? job.jobId = some (.error (.groupFailed group reason))) ∧
          ∀ {otherRoutine otherRefusal? other},
            Reaches options otherRoutine workers jobs otherRefusal? other →
            Ended workers jobs other → other.fates[group]? = some fate →
            (fate = .reported → otherRoutine options job = routine options job) →
            other.outcomes.find? job.jobId = progress.outcomes.find? job.jobId)) := by
  refine ⟨?_, fun ended =>
    ⟨outcomes_eq_lower reaches ended, fun id => ?_, flatten_partition _ _, ?_⟩⟩
  · obtain ⟨final, steps, finished⟩ := exists_finished_of_expired options routine
      progress.expired_expire ((Consistent.start refusal?).steps reaches).within
    exact ⟨final, .head (.expired progress) steps, finished⟩
  · rw [outcomes_eq_lower reaches ended]
    exact mem_keys_lower
  · intro distinct group members fate isGroup isFate job member
    have found := find?_of_ended reaches ended distinct isGroup member isFate
    refine ⟨?_, ?_, ?_⟩
    · rintro rfl
      rw [found, outcomeIn_reported]
    · intro reason because
      rw [found, outcomeIn_of_reason because]
    · intro otherRoutine otherRefusal? other otherReaches otherEnded sameFate sameAnswer
      rw [found, find?_of_ended otherReaches otherEnded distinct isGroup member sameFate]
      by_cases reported : fate = .reported
      · rw [reported, outcomeIn_reported, outcomeIn_reported, sameAnswer reported]
      · obtain ⟨reason, because⟩ := exists_reason options reported
        rw [outcomeIn_of_reason because, outcomeIn_of_reason because]

end Batches

/-- Six jobs, of which the fourth one is rejected. -/
def Trial.jobs : List LoweringJob :=
  [⟨['a'], "1".toList⟩, ⟨['b'], "2".toList⟩, ⟨['c'], "3".toList⟩, ⟨['d'], "REJECT".toList⟩,
    ⟨['e'], "5".toList⟩, ⟨['f'], "6".toList⟩]

/-- The first of three workers is too late, the second one reports and the third one dies. -/
def Trial.fates : List WorkerFate :=
  [.late, .reported, .died]

/-- One batch holds a module, a rejection, and failures of two groups. -/
theorem outcomes_of_trial :
    ∃ final, Reaches {} MdxBuild.Trial.routine 3 Trial.jobs (refusalIn? Trial.fates) final ∧
      Ended 3 Trial.jobs final ∧
      (Trial.jobs.map LoweringJob.jobId).Nodup ∧
      final.outcomes.find? ['b'] =
        some (.error (.groupFailed 0 "timed out after 60000ms".toList)) ∧
      final.outcomes.find? ['c'] = some (MdxBuild.Trial.routine {} ⟨['c'], "3".toList⟩) ∧
      final.outcomes.find? ['d'] = some (.error (.transform "rejected d".toList)) ∧
      final.outcomes.find? ['e'] =
        some (.error (.groupFailed 2 "worker exited abnormally".toList)) := by
  obtain ⟨final, reaches, found⟩ : ∃ final,
      Reaches {} MdxBuild.Trial.routine 3 Trial.jobs (refusalIn? Trial.fates) final ∧
        final.fates = Trial.fates := exists_steps_of_fates _ _ rfl
  have ended : Ended 3 Trial.jobs final := congrArg List.length found
  have distinct : (Trial.jobs.map LoweringJob.jobId).Nodup := by decide
  have becomes := ((outcomes_of_reaches reaches).2 ended).2.2.2 distinct
  rw [found] at becomes
  refine ⟨final, reaches, ended, distinct, ?_, ?_, ?_, ?_⟩
  · exact (becomes 0 _ _ rfl rfl ⟨['b'], "2".toList⟩ (by decide)).2.1 _ rfl
  · exact (becomes 1 _ _ rfl rfl ⟨['c'], "3".toList⟩ (by decide)).1 rfl
  · exact (becomes 1 _ _ rfl rfl ⟨['d'], "REJECT".toList⟩ (by decide)).1 rfl
  · exact (becomes 2 _ _ rfl rfl ⟨['e'], "5".toList⟩ (by decide)).2.1 _ rfl

end MdxBuild.Batch
