import Mathlib.Data.List.Induction
import Mathlib.Data.List.Nodup
import MdxBuild.Batch.Lowering
import MdxBuild.Proofs.Batch.Partition
import MdxBuild.Proofs.Dictionary

/-!
# What becomes of lowering jobs

The outcomes of a batch are entries taken in one after the other, so the last entry of an id counts.
Every entry is about one of the jobs, and a module is always what the routine returns for a job with
the id that it is found under. Which of the jobs with this id it is depends on their order and on
how they are spread over the workers; it does not matter if the routine makes the same of all of
them, and in particular if ids are distinct.
-/

namespace MdxBuild.Batch

variable {options : LoweringOptions} {routine : LoweringRoutine} {workers : Nat}
  {fate : Nat → List LoweringJob → WorkerFate} {jobs : List LoweringJob} {id : Text}
  {outcome : LoweringOutcome} {outcomes : Outcomes}

/-! ## Reports -/

@[simp]
theorem mem_entries_add {report : WorkerReport} {entry : Text × LoweringOutcome} :
    entry ∈ (report.add id outcome).entries ↔ entry ∈ report.entries ∨ entry = (id, outcome) := by
  cases outcome with
  | ok lowered =>
    simp only [WorkerReport.add, WorkerReport.entries, List.map_append, List.mem_append,
      List.map_singleton, List.mem_singleton]
    exact or_right_comm
  | error error =>
    simp only [WorkerReport.add, WorkerReport.entries, List.map_append, List.mem_append,
      List.map_singleton, List.mem_singleton]
    exact or_assoc.symm

@[simp]
theorem report_nil : report options routine [] = {} :=
  rfl

@[simp]
theorem report_snoc (job : LoweringJob) :
    report options routine (jobs ++ [job]) =
      (report options routine jobs).add job.jobId (routine options job) := by
  simp only [report, List.foldl_append, List.foldl_cons, List.foldl_nil]

/-- A report has an entry for each job: what the routine returns for it. -/
theorem mem_report :
    (id, outcome) ∈ (report options routine jobs).entries ↔
      ∃ job ∈ jobs, job.jobId = id ∧ routine options job = outcome := by
  induction jobs using List.reverseRecOn with
  | nil => simp [WorkerReport.entries]
  | append_singleton jobs job ih =>
    rw [report_snoc, mem_entries_add, ih]
    simp only [List.mem_append, List.mem_singleton, or_and_right, exists_or, exists_eq_left,
      Prod.mk.injEq]
    rw [eq_comm (a := id), eq_comm (a := outcome)]

/-! ## Groups -/

/-- What becomes of a job whose group has a number and whose worker has a fate. -/
def outcomeIn (options : LoweringOptions) (routine : LoweringRoutine) (group : Nat)
    (fate : WorkerFate) (job : LoweringJob) : LoweringOutcome :=
  match failureReason options fate with
  | none => routine options job
  | some reason => .error (.groupFailed group reason)

@[simp]
theorem outcomeIn_reported {group : Nat} (job : LoweringJob) :
    outcomeIn options routine group .reported job = routine options job :=
  rfl

theorem outcomeIn_of_reason {group : Nat} {fate : WorkerFate} {reason : Text}
    (because : failureReason options fate = some reason) (job : LoweringJob) :
    outcomeIn options routine group fate job = .error (.groupFailed group reason) := by
  rw [outcomeIn, because]

/-- There is a reason for each failure. -/
theorem exists_reason (options : LoweringOptions) {fate : WorkerFate} (failed : fate ≠ .reported) :
    ∃ reason, failureReason options fate = some reason := by
  cases fate with
  | reported => exact absurd rfl failed
  | late => exact ⟨_, rfl⟩
  | died => exact ⟨_, rfl⟩
  | refused error => exact ⟨_, rfl⟩

/-- What a group of jobs adds to the outcomes. -/
def groupOutcomes (options : LoweringOptions) (routine : LoweringRoutine) (group : Nat)
    (fate : WorkerFate) (jobs : List LoweringJob) : List (Text × LoweringOutcome) :=
  match failureReason options fate with
  | none => (report options routine jobs).entries
  | some reason => failures group reason jobs

/-- A group has an entry for each of its jobs and no other ones. -/
theorem mem_groupOutcomes {group : Nat} {groupFate : WorkerFate} :
    (id, outcome) ∈ groupOutcomes options routine group groupFate jobs ↔
      ∃ job ∈ jobs, job.jobId = id ∧ outcomeIn options routine group groupFate job = outcome := by
  rw [groupOutcomes]
  unfold outcomeIn
  split
  · exact mem_report
  · simp only [failures, List.mem_map, Prod.mk.injEq]

/-- Outcomes that have one for each job of a group are complete. -/
theorem complete_eq_self {group : Nat}
    (known : ∀ job ∈ jobs, (outcomes.find? job.jobId).isSome = true) :
    complete group jobs outcomes = outcomes := by
  induction jobs with
  | nil => rfl
  | cons job others ih =>
    rw [complete, List.foldl_cons, if_pos (known job List.mem_cons_self)]
    exact ih fun other member => known other (List.mem_cons_of_mem job member)

/-- What is received of a worker is taken in entry by entry: no report leaves out a job. -/
theorem receive_received (group : Nat) (groupFate : WorkerFate) :
    receive group jobs (received options routine groupFate jobs) outcomes =
      outcomes.insertAll (groupOutcomes options routine group groupFate jobs) := by
  cases failed : failureReason options groupFate with
  | none =>
    simp only [received, groupOutcomes, failed]
    refine complete_eq_self fun job member => ?_
    exact Dictionary.isSome_find?_insertAll.mpr
      (.inl ⟨_, mem_report.mpr ⟨job, member, rfl, rfl⟩⟩)
  | some reason => simp only [received, groupOutcomes, failed, receive]

/-! ## Batches -/

/-- The entries of groups, of which the first one has the number `group`. -/
def entriesFrom (options : LoweringOptions) (routine : LoweringRoutine)
    (fate : Nat → List LoweringJob → WorkerFate) :
    (group : Nat) → List (List LoweringJob) → List (Text × LoweringOutcome)
  | _, [] => []
  | group, jobs :: others =>
    groupOutcomes options routine group (fate group jobs) jobs ++
      entriesFrom options routine fate (group + 1) others

/-- The outcomes of groups are their entries, taken in one after the other. -/
theorem collect_eq_insertAll (group : Nat) (groups : List (List LoweringJob)) :
    collect options routine fate group outcomes groups =
      outcomes.insertAll (entriesFrom options routine fate group groups) := by
  induction groups generalizing group outcomes with
  | nil => rfl
  | cons jobs others ih =>
    rw [collect, ih, receive_received, entriesFrom, Dictionary.insertAll_append]

/-- Each entry is what becomes of a job in its group, and each job of a group has one. -/
theorem mem_entriesFrom {group : Nat} {groups : List (List LoweringJob)} :
    (id, outcome) ∈ entriesFrom options routine fate group groups ↔
      ∃ index members, groups[index]? = some members ∧ ∃ job ∈ members, job.jobId = id ∧
        outcomeIn options routine (group + index) (fate (group + index) members) job = outcome := by
  induction groups generalizing group with
  | nil => simp [entriesFrom]
  | cons jobs others ih =>
    rw [entriesFrom, List.mem_append, mem_groupOutcomes, ih]
    constructor
    · rintro (first | ⟨index, members, isGroup, facts⟩)
      · exact ⟨0, jobs, rfl, first⟩
      · refine ⟨index + 1, members, isGroup, ?_⟩
        rwa [Nat.add_right_comm, Nat.add_assoc] at facts
    · rintro ⟨index, members, isGroup, facts⟩
      cases index with
      | zero =>
        obtain rfl : jobs = members := Option.some.inj isGroup
        exact .inl facts
      | succ index =>
        refine .inr ⟨index, members, isGroup, ?_⟩
        rwa [Nat.add_right_comm, Nat.add_assoc]

theorem lower_eq_insertAll :
    lower options workers routine fate jobs = Dictionary.empty.insertAll
      (entriesFrom options routine fate 0 (partition jobs (max workers 1))) :=
  collect_eq_insertAll 0 _

/-- What is found for an id is what becomes of a job with this id in its group. -/
theorem exists_of_find?_lower
    (found : (lower options workers routine fate jobs).find? id = some outcome) :
    ∃ group members, (partition jobs (max workers 1))[group]? = some members ∧
      ∃ job ∈ members, job.jobId = id ∧
        outcomeIn options routine group (fate group members) job = outcome := by
  rw [lower_eq_insertAll] at found
  rcases Dictionary.mem_of_find?_insertAll found with member | before
  · simpa only [Nat.zero_add] using mem_entriesFrom.mp member
  · cases before

/-- The jobs of a group are jobs of the batch. -/
theorem mem_of_mem_group {group : Nat} {members : List LoweringJob} {job : LoweringJob}
    (isGroup : (partition jobs (max workers 1))[group]? = some members) (member : job ∈ members) :
    job ∈ jobs := by
  rw [← flatten_partition jobs (max workers 1)]
  exact List.mem_flatten_of_mem (List.mem_of_getElem? isGroup) member

/-- Every job of the batch is in a group. -/
theorem exists_group (workers : Nat) {job : LoweringJob} (member : job ∈ jobs) :
    ∃ (group : Nat) (members : List LoweringJob),
      (partition jobs (max workers 1))[group]? = some members ∧ job ∈ members := by
  rw [← flatten_partition jobs (max workers 1)] at member
  obtain ⟨members, isMember, inGroup⟩ := List.mem_flatten.mp member
  obtain ⟨group, isGroup⟩ := List.getElem?_of_mem isMember
  exact ⟨group, members, isGroup, inGroup⟩

/-- A batch has an outcome for the ids of its jobs and for no other ones. -/
theorem mem_keys_lower :
    id ∈ (lower options workers routine fate jobs).keys ↔ ∃ job ∈ jobs, job.jobId = id := by
  rw [Dictionary.mem_keys, lower_eq_insertAll, Dictionary.isSome_find?_insertAll]
  simp only [Dictionary.find?_empty, Option.isSome_none, Bool.false_eq_true, or_false,
    mem_entriesFrom]
  constructor
  · rintro ⟨_, group, members, isGroup, job, member, sameId, -⟩
    exact ⟨job, mem_of_mem_group isGroup member, sameId⟩
  · rintro ⟨job, member, sameId⟩
    obtain ⟨group, members, isGroup, inGroup⟩ := exists_group workers member
    exact ⟨_, group, members, isGroup, job, inGroup, sameId, rfl⟩

/-- A module that a batch has for an id is what the routine returns for a job with this id. -/
theorem exists_job_of_lower {lowered : LoweredModule}
    (found : (lower options workers routine fate jobs).find? id = some (.ok lowered)) :
    ∃ job ∈ jobs, job.jobId = id ∧ routine options job = .ok lowered := by
  obtain ⟨group, members, isGroup, job, member, sameId, becomes⟩ := exists_of_find?_lower found
  refine ⟨job, mem_of_mem_group isGroup member, sameId, ?_⟩
  rw [outcomeIn] at becomes
  split at becomes
  · exact becomes
  · cases becomes

/-- If the same becomes of all jobs with an id, then this is what the batch has for the id. -/
theorem find?_lower_of_agree {group : Nat} {members : List LoweringJob} {job : LoweringJob}
    (isGroup : (partition jobs (max workers 1))[group]? = some members) (member : job ∈ members)
    (agree : ∀ other others, (partition jobs (max workers 1))[other]? = some others →
      ∀ namesake ∈ others, namesake.jobId = job.jobId →
        outcomeIn options routine other (fate other others) namesake =
          outcomeIn options routine group (fate group members) job) :
    (lower options workers routine fate jobs).find? job.jobId =
      some (outcomeIn options routine group (fate group members) job) := by
  rw [lower_eq_insertAll]
  refine Dictionary.find?_insertAll (.inl (mem_entriesFrom.mpr ?_)) fun outcome isEntry => ?_
  · refine ⟨group, members, isGroup, job, member, rfl, ?_⟩
    rw [Nat.zero_add]
  · obtain ⟨other, others, isOther, namesake, inOther, sameId, becomes⟩ :=
      mem_entriesFrom.mp isEntry
    rw [Nat.zero_add] at becomes
    rw [← becomes, agree other others isOther namesake inOther sameId]

/-- If all workers report in time and the routine makes the same of all jobs with an id, then this
is what the batch has for the id. -/
theorem find?_lower_of_reported (reported : ∀ group jobs, fate group jobs = .reported)
    {job : LoweringJob} (member : job ∈ jobs)
    (agree : ∀ other ∈ jobs, other.jobId = job.jobId →
      routine options other = routine options job) :
    (lower options workers routine fate jobs).find? job.jobId = some (routine options job) := by
  have becomes (group : Nat) (members : List LoweringJob) (other : LoweringJob) :
      outcomeIn options routine group (fate group members) other = routine options other := by
    rw [outcomeIn, reported]
    rfl
  obtain ⟨group, members, isGroup, inGroup⟩ := exists_group workers member
  rw [← becomes group members job]
  refine find?_lower_of_agree isGroup inGroup fun other others isOther namesake inOther sameId => ?_
  rw [becomes, becomes, agree namesake (mem_of_mem_group isOther inOther) sameId]

/-- Jobs with distinct ids are in one group each. -/
theorem group_unique (distinct : (jobs.map LoweringJob.jobId).Nodup)
    {group other : Nat} {members others : List LoweringJob} {job namesake : LoweringJob}
    (isGroup : (partition jobs (max workers 1))[group]? = some members) (member : job ∈ members)
    (isOther : (partition jobs (max workers 1))[other]? = some others) (inOther : namesake ∈ others)
    (sameId : namesake.jobId = job.jobId) : other = group ∧ namesake = job := by
  obtain rfl : namesake = job :=
    List.inj_on_of_nodup_map distinct (mem_of_mem_group isOther inOther)
      (mem_of_mem_group isGroup member) sameId
  refine ⟨?_, rfl⟩
  have flat : (partition jobs (max workers 1)).flatten.Nodup := by
    rw [flatten_partition]
    exact List.Nodup.of_map _ distinct
  have apart := (List.nodup_flatten.mp flat).2
  rw [List.pairwise_iff_getElem] at apart
  obtain ⟨inRange, rfl⟩ := List.getElem?_eq_some_iff.mp isGroup
  obtain ⟨inRangeOther, rfl⟩ := List.getElem?_eq_some_iff.mp isOther
  rcases Nat.lt_trichotomy other group with less | same | greater
  · exact absurd member (apart other group inRangeOther inRange less inOther)
  · exact same
  · exact absurd inOther (apart group other inRange inRangeOther greater member)

/-- If ids are distinct, then what the batch has for the id of a job is what becomes of this job in
its group. -/
theorem find?_lower_of_nodup (distinct : (jobs.map LoweringJob.jobId).Nodup)
    {group : Nat} {members : List LoweringJob} {job : LoweringJob}
    (isGroup : (partition jobs (max workers 1))[group]? = some members) (member : job ∈ members) :
    (lower options workers routine fate jobs).find? job.jobId =
      some (outcomeIn options routine group (fate group members) job) := by
  refine find?_lower_of_agree isGroup member fun other others isOther namesake inOther sameId => ?_
  obtain ⟨rfl, rfl⟩ := group_unique distinct isGroup member isOther inOther sameId
  rw [isGroup, Option.some.injEq] at isOther
  rw [isOther]

end MdxBuild.Batch
