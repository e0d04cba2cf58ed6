import KoreanLox.Proofs.Grammar.Unlabelled
import Mathlib.Data.List.Perm.Basic

/-!
# The courses of readings

A course is what a reading came to, with a record of its way: where it looked at a token, which
lists of parameters or arguments it read and where their entries begin, and what stood before an
equals sign. The courses of one reading with all limits on the entries of lists are coherent if the
limit changes nothing but the reports of surplus entries, and those are the ones owed for the
recorded lists (`Coherent`). Every way to combine readings keeps their courses coherent.
-/

namespace KoreanLox

open Parse

/-! ## What is reported without stopping -/

/-- Whether a cause is an entry too many. -/
def FaultCause.isSurplus : FaultCause → Bool
  | .tooManyParameters | .tooManyArguments => true
  | _ => false

/-- Whether reading goes on at a fault of some cause: at an entry too many, and behind an assignment
to what takes no value. -/
def FaultCause.isMild : FaultCause → Bool
  | .invalidAssignmentTarget => true
  | cause => cause.isSurplus

/-- What is not mild is no entry too many. -/
theorem FaultCause.isSurplus_of_not_isMild {cause : FaultCause} (grave : cause.isMild = false) :
    cause.isSurplus = false := by
  cases cause <;> first | rfl | cases grave

/-- A cause at which reading stops. -/
abbrev GraveCause : Type := { cause : FaultCause // cause.isMild = false }

/-- No token may be read behind the last one. -/
@[simps]
def GraveCause.overrun : GraveCause := ⟨.overrun, rfl⟩

/-- A missing mark stops the reading. -/
@[simps]
def GraveCause.expected (mark : Mark) : GraveCause := ⟨.expected mark, rfl⟩

/-- Whether what stands before an equals sign can take a value: a variable or a property. -/
def Expr.isAssignable {ι : Type} : Expr ι → Bool
  | .read _ | .get _ _ => true
  | _ => false

/-- The lists with a limit on their entries. -/
inductive ListKind where
  | parameters
  | arguments

/-- What is reported of an entry too many. -/
def ListKind.cause : ListKind → FaultCause
  | .parameters => .tooManyParameters
  | .arguments => .tooManyArguments

/-- What is reported of an entry too many is that. -/
@[simp]
theorem ListKind.isSurplus_cause (kind : ListKind) : kind.cause.isSurplus = true := by
  cases kind <;> rfl

/-- A list that was read, maybe not to its end. -/
structure EntryList where
  /-- What its entries are. -/
  kind : ListKind
  /-- The productions around it. -/
  path : List Production
  /-- The tokens from the first one of an entry on, for every entry that was begun. -/
  starts : List (List Token)

namespace EntryList

/-- The faults of a list with a limit: one at the first token of each entry beyond it. -/
def surplus (limit : Nat) (list : EntryList) : List Fault :=
  (list.starts.drop limit).map fun start => ⟨list.kind.cause, list.path, start⟩

/-- A list has as many faults as it has entries beyond the limit. -/
theorem length_surplus (limit : Nat) (list : EntryList) :
    (list.surplus limit).length = list.starts.length - limit := by
  rw [surplus, List.length_map, List.length_drop]

/-- A list without entries has no faults. -/
theorem surplus_nil (limit : Nat) (kind : ListKind) (path : List Production) :
    surplus limit ⟨kind, path, []⟩ = [] := by
  rw [surplus, List.drop_nil, List.map_nil]

/-- A further entry behind some number of others is a fault if these are as many as the limit. -/
theorem surplus_cons (limit count : Nat) (kind : ListKind) (path : List Production)
    (start : List Token) (starts : List (List Token)) :
    surplus (limit - count) ⟨kind, path, start :: starts⟩ =
      (if limit ≤ count then [⟨kind.cause, path, start⟩] else []) ++
        surplus (limit - (count + 1)) ⟨kind, path, starts⟩ := by
  unfold surplus
  split
  next reached =>
    rw [Nat.sub_eq_zero_of_le reached, Nat.sub_eq_zero_of_le (Nat.le_succ_of_le reached)]
    rfl
  next within =>
    rw [show limit - count = limit - (count + 1) + 1 by omega]
    rfl

end EntryList

/-! ## Courses -/

/-- What reading came to, and what it came past. -/
structure Course (α : Type) extends RawStep α where
  /-- The tokens that were left wherever the next one was looked at. -/
  looks : List (List Token)
  /-- The lists that were read. -/
  lists : List EntryList
  /-- What stood before an equals sign. -/
  targets : List RawExpr

namespace Course

variable {α β : Type}

/-- A course with nothing on its way but some looks. -/
def glance (looks : List (List Token)) (step : RawStep α) : Course α := ⟨step, looks, [], []⟩

/-- A course with another one behind it. -/
def before (first : Course α) (later : Course β) : Course β :=
  ⟨⟨first.reports ++ later.reports, later.result⟩, first.looks ++ later.looks,
    first.lists ++ later.lists, first.targets ++ later.targets⟩

/-- One course and then another, unless the first one stopped. -/
def andThen (first : Course α) (next : α → List Token → Course β) : Course β :=
  match first.result with
  | .error fault => ⟨⟨first.reports, .error fault⟩, first.looks, first.lists, first.targets⟩
  | .ok (value, rest) => first.before (next value rest)

/-- A course that began at some tokens and goes on behind a fault, which is reported. -/
def attempt (inBlock : Bool) (tokens : List Token) (course : Course α) : Course (Option α) :=
  match course.result with
  | .ok (value, rest) =>
    ⟨⟨course.reports, .ok (some value, rest)⟩, course.looks, course.lists, course.targets⟩
  | .error fault =>
    let stopped := lastOnes fault.remaining tokens
    ⟨⟨course.reports ++ [fault], .ok (none, resume inBlock stopped)⟩,
      course.looks ++ [stopped], course.lists, course.targets⟩

/-- The beginning of an entry of a list that has some number of entries already. It is reported if
they are as many as the limit. -/
def beginning (kind : ListKind) (path : List Production) (limit : Option Nat) (count : Nat)
    (tokens : List Token) : Course Unit :=
  let reports := match limit with
    | none => []
    | some limit => if limit ≤ count then [⟨kind.cause, path, tokens⟩] else []
  ⟨⟨reports, .ok ((), tokens)⟩, [], [], []⟩

/-- The entries of a list, as long as further ones follow. -/
def entries (kind : ListKind) (path : List Production) (limit : Option Nat)
    (entry : List Token → Course (β × Bool)) :
    Nat → List β → List Token → Course (List β)
  | 0, _, tokens => .glance [] ⟨[], .error ⟨.overrun, path, tokens⟩⟩
  | rounds + 1, values, tokens =>
    (beginning kind path limit values.length tokens).andThen fun _ rest =>
      (entry rest).andThen fun (value, more) rest =>
        if more then entries kind path limit entry rounds (value :: values) rest
        else .glance [] ⟨[], .ok ((value :: values).reverse, rest)⟩

/-- What there is behind a course; nothing where it stopped. -/
def behind (course : Course α) (there : α → List Token → List β) : List β :=
  match course.result with
  | .ok (value, rest) => there value rest
  | .error _ => []

/-- Where the entries of a list begin: there is a further one behind an entry with a comma. -/
def starts (entry : List Token → Course (β × Bool)) : Nat → List Token → List (List Token)
  | 0, _ => []
  | rounds + 1, tokens =>
    tokens :: (entry tokens).behind fun (_, more) rest =>
      if more then starts entry rounds rest else []

/-- A list with its entries. -/
def listed (kind : ListKind) (path : List Production) (limit : Option Nat)
    (entry : List Token → Course (β × Bool)) (rounds : Nat) (tokens : List Token) :
    Course (List β) :=
  let read := entries kind path limit entry rounds [] tokens
  { read with lists := ⟨kind, path, starts entry rounds tokens⟩ :: read.lists }

/-- A value for what stood before an equals sign. -/
def assigned (target : RawExpr) (path : List Production) (place : List Token)
    (course : Course RawExpr) : Course RawExpr :=
  let given := course.andThen fun value rest =>
    .glance [] (Grammar.assignTo target place value path rest)
  { given with targets := target :: given.targets }

end Course

/-- The courses of one reading with all limits are coherent: with a limit everything is as without
one, but for further reports of surplus entries. These are owed for the recorded lists, or beside
them. What stops the reading is no mild fault, and if nothing but bad targets was reported on the
way to a value, then nothing was exactly if there are only good ones. -/
structure Coherent {α : Type} (owed : Nat → List Fault) (course : Option Nat → Course α) :
    Prop where
  /-- The way does not depend on the limit. -/
  way : ∀ limit, course limit =
    ⟨⟨(course limit).reports, (course none).result⟩, (course none).looks, (course none).lists,
      (course none).targets⟩
  /-- All other reports are those without a limit. -/
  others : ∀ limit, (course limit).reports.filter (fun fault => !fault.cause.isSurplus) =
    (course none).reports
  /-- The reports of surplus entries are those that are owed. -/
  surplus : ∀ limit,
    ((course (some limit)).reports.filter fun fault => fault.cause.isSurplus).Perm
      (owed limit ++ (course none).lists.flatMap (EntryList.surplus limit))
  /-- No mild fault stops the reading. -/
  halts : ∀ fault, (course none).result = .error fault → fault.cause.isMild = false
  /-- Bad targets are what is reported. -/
  settles : (∀ fault ∈ (course none).reports, fault.cause = .invalidAssignmentTarget) →
    ∀ came, (course none).result = .ok came →
      ((course none).reports = [] ↔
        ∀ target ∈ (course none).targets, target.isAssignable = true)

namespace Coherent

variable {α β : Type}

/-- A course that reports nothing, whatever the limit, is coherent. -/
theorem glance {step : RawStep α} (looks : List (List Token)) (quiet : step.reports = [])
    (halts : ∀ fault, step.result = .error fault → fault.cause.isMild = false) :
    Coherent (fun _ => []) fun _ => Course.glance looks step where
  way _ := rfl
  others _ := by simp [Course.glance, quiet]
  surplus _ := by simp [Course.glance, quiet]
  halts := halts
  settles := by simp [Course.glance, quiet]

/-- What is owed may be told in another way. -/
theorem owing {owed other : Nat → List Fault} {course : Option Nat → Course α}
    (coherent : Coherent owed course) (same : ∀ limit, owed limit = other limit) :
    Coherent other course :=
  funext same ▸ coherent

/-- A course stays coherent when it comes to something else, with the same further reports whatever
the limit. -/
theorem turn {owed : Nat → List Fault} {course : Option Nat → Course α}
    (coherent : Coherent owed course) (more : List Fault)
    (apart : ∀ fault ∈ more, fault.cause.isSurplus = false)
    {result : Except Fault (β × List Token)} (looks : List (List Token)) {targets : List RawExpr}
    (halts : ∀ fault, result = .error fault → fault.cause.isMild = false)
    (settles : (∀ fault ∈ (course none).reports ++ more, fault.cause = .invalidAssignmentTarget) →
      ∀ came, result = .ok came → ((course none).reports ++ more = [] ↔
        ∀ target ∈ targets, target.isAssignable = true)) :
    Coherent owed fun limit =>
      ⟨⟨(course limit).reports ++ more, result⟩, looks, (course none).lists, targets⟩ where
  way _ := rfl
  others limit := by
    have kept : more.filter (fun fault => !fault.cause.isSurplus) = more :=
      List.filter_eq_self.mpr fun fault listed => by rw [apart fault listed]; rfl
    show List.filter _ ((course limit).reports ++ more) = (course none).reports ++ more
    rw [List.filter_append, coherent.others, kept]
  surplus limit := by
    have dropped : more.filter (fun fault => fault.cause.isSurplus) = [] :=
      List.filter_eq_nil_iff.mpr fun fault listed => by rw [apart fault listed]; nofun
    show (List.filter _ ((course (some limit)).reports ++ more)).Perm _
    rw [List.filter_append, dropped, List.append_nil]
    exact coherent.surplus limit
  halts := halts
  settles := settles

/-- A coherent course with a coherent one behind it is coherent. -/
theorem before {owed later : Nat → List Fault} {first : Option Nat → Course α}
    {next : Option Nat → Course β} {found : α × List Token} (head : Coherent owed first)
    (tail : Coherent later next) (came : (first none).result = .ok found) :
    Coherent (fun limit => owed limit ++ later limit)
      fun limit => (first limit).before (next limit) where
  way limit := by rw [head.way limit, tail.way limit]; rfl
  others limit := by
    show List.filter _ ((first limit).reports ++ (next limit).reports) = _
    rw [List.filter_append, head.others, tail.others]
    rfl
  surplus limit := by
    show (List.filter _ ((first (some limit)).reports ++ (next (some limit)).reports)).Perm
      (owed limit ++ later limit ++
        ((first none).lists ++ (next none).lists).flatMap (EntryList.surplus limit))
    rw [List.filter_append, List.flatMap_append]
    refine ((head.surplus limit).append (tail.surplus limit)).trans ?_
    rw [List.append_assoc, List.append_assoc]
    refine List.Perm.append_left _ ?_
    rw [← List.append_assoc, ← List.append_assoc]
    exact List.perm_append_comm.append_right _
  halts := tail.halts
  settles := by
    intro bad last reached
    have one := head.settles (fun fault listed => bad fault (List.mem_append_left _ listed)) _ came
    have other := tail.settles (fun fault listed => bad fault (List.mem_append_right _ listed))
      last reached
    show (first none).reports ++ (next none).reports = [] ↔
      ∀ target ∈ (first none).targets ++ (next none).targets, target.isAssignable = true
    rw [List.append_eq_nil_iff, one, other, List.forall_mem_append]

/-- Coherent courses are coherent in sequence. -/
theorem andThen {owed : Nat → List Fault} {later : α → List Token → Nat → List Fault}
    {first : Option Nat → Course α} {next : Option Nat → α → List Token → Course β}
    (head : Coherent owed first)
    (tail : ∀ value rest, Coherent (later value rest) fun limit => next limit value rest) :
    Coherent
      (fun limit => owed limit ++ (first none).behind fun value rest => later value rest limit)
      fun limit => (first limit).andThen (next limit) := by
  unfold Course.behind
  cases came : (first none).result with
  | error fault =>
    have ended (limit : Option Nat) : (first limit).andThen (next limit) =
        ⟨⟨(first limit).reports ++ [], .error fault⟩, (first none).looks, (first none).lists,
          (first none).targets⟩ := by
      rw [head.way limit, Course.andThen, came, List.append_nil]
    rw [funext ended]
    -- Nothing follows, and nothing further is owed.
    refine (head.turn [] nofun _ ?_ ?_).owing fun _ => (List.append_nil _).symm
    · intro _ stopped
      obtain rfl := Except.error.inj stopped
      exact head.halts fault came
    · nofun
  | ok found =>
    obtain ⟨value, rest⟩ := found
    have ended (limit : Option Nat) :
        (first limit).andThen (next limit) = (first limit).before (next limit value rest) := by
      rw [head.way limit, Course.andThen, came]
    rw [funext ended]
    exact head.before (tail value rest) came

/-- A course that goes on behind a fault is coherent. -/
theorem attempt {owed : Nat → List Fault} {course : Option Nat → Course α}
    (coherent : Coherent owed course) (inBlock : Bool) (tokens : List Token) :
    Coherent owed fun limit => (course limit).attempt inBlock tokens := by
  cases came : (course none).result with
  | ok found =>
    obtain ⟨value, rest⟩ := found
    have ended (limit : Option Nat) : (course limit).attempt inBlock tokens =
        ⟨⟨(course limit).reports ++ [], .ok (some value, rest)⟩, (course none).looks,
          (course none).lists, (course none).targets⟩ := by
      rw [coherent.way limit, Course.attempt, came, List.append_nil]
    rw [funext ended]
    refine coherent.turn [] nofun _ nofun fun bad _ _ => ?_
    rw [List.append_nil] at bad ⊢
    exact coherent.settles bad _ came
  | error fault =>
    have grave := coherent.halts fault came
    have ended (limit : Option Nat) : (course limit).attempt inBlock tokens =
        ⟨⟨(course limit).reports ++ [fault],
            .ok (none, resume inBlock (lastOnes fault.remaining tokens))⟩,
          (course none).looks ++ [lastOnes fault.remaining tokens], (course none).lists,
          (course none).targets⟩ := by
      rw [coherent.way limit, Course.attempt, came]
    rw [funext ended]
    refine coherent.turn [fault] (fun other listed => ?_) _ nofun fun bad _ _ => ?_
    · rw [List.mem_singleton.mp listed]
      exact FaultCause.isSurplus_of_not_isMild grave
    · -- The fault is no bad target, so nothing has to be shown.
      have cause := bad fault (List.mem_append_right _ (List.mem_singleton_self fault))
      rw [cause] at grave
      cases grave

/-- A bad target is reported, whatever the value for it is. -/
theorem exists_reports_of_assignTo (target : RawExpr) (path : List Production)
    (place : List Token) : ∃ reports : List Fault,
      (∀ value rest, ∃ result,
        Grammar.assignTo target place value path rest = ⟨reports, .ok (result, rest)⟩) ∧
      (reports = [] ↔ target.isAssignable = true) ∧
      ∀ fault ∈ reports, fault.cause = .invalidAssignmentTarget := by
  cases target with
  | read reference => exact ⟨[], fun value rest => ⟨_, rfl⟩, by simp [Expr.isAssignable], nofun⟩
  | get object property =>
    exact ⟨[], fun value rest => ⟨_, rfl⟩, by simp [Expr.isAssignable], nofun⟩
  | _ =>
    exact ⟨[⟨.invalidAssignmentTarget, path, place⟩], fun value rest => ⟨_, rfl⟩,
      by simp [Expr.isAssignable], by simp⟩

/-- A value for what stood before an equals sign is coherent. -/
theorem assigned {course : Option Nat → Course RawExpr}
    (coherent : Coherent (fun _ => []) course) (target : RawExpr) (path : List Production)
    (place : List Token) :
    Coherent (fun _ => []) fun limit => (course limit).assigned target path place := by
  obtain ⟨reports, assigns, silent, bad⟩ := exists_reports_of_assignTo target path place
  cases came : (course none).result with
  | error fault =>
    have ended (limit : Option Nat) : (course limit).assigned target path place =
        ⟨⟨(course limit).reports ++ [], .error fault⟩, (course none).looks, (course none).lists,
          target :: (course none).targets⟩ := by
      rw [coherent.way limit, Course.assigned, Course.andThen, came, List.append_nil]
    rw [funext ended]
    refine coherent.turn [] nofun _ (fun _ stopped => ?_) nofun
    obtain rfl := Except.error.inj stopped
    exact coherent.halts fault came
  | ok found =>
    obtain ⟨value, rest⟩ := found
    obtain ⟨result, assigned⟩ := assigns value rest
    have ended (limit : Option Nat) : (course limit).assigned target path place =
        ⟨⟨(course limit).reports ++ reports, .ok (result, rest)⟩, (course none).looks ++ [],
          (course none).lists, target :: (course none).targets⟩ := by
      rw [coherent.way limit, Course.assigned, Course.andThen, came]
      simp [Course.glance, Course.before, assigned]
    rw [funext ended]
    refine coherent.turn reports (fun fault listed => by rw [bad fault listed]; rfl) _ nofun
      fun only _ _ => ?_
    have before := coherent.settles
      (fun fault listed => only fault (List.mem_append_left _ listed)) _ came
    rw [List.append_eq_nil_iff, before, silent, List.forall_mem_cons, and_comm]

/-! ## Lists -/

/-- The beginning of an entry owes the report of a surplus entry. -/
theorem beginning (kind : ListKind) (path : List Production) (count : Nat) (tokens : List Token) :
    Coherent (fun limit => if limit ≤ count then [⟨kind.cause, path, tokens⟩] else [])
      fun limit => Course.beginning kind path limit count tokens where
  way _ := rfl
  others limit := by
    cases limit with
    | none => rfl
    | some limit =>
      unfold Course.beginning
      dsimp only
      split <;> simp
  surplus limit := by
    unfold Course.beginning
    dsimp only
    split <;> simp
  halts := nofun
  settles := by simp [Course.beginning]

/-- Where the entries of a list begin does not depend on what is reported in them. -/
theorem starts_congr {entry other : List Token → Course (β × Bool)}
    (same : ∀ tokens, (entry tokens).result = (other tokens).result) (rounds : Nat)
    (tokens : List Token) :
    Course.starts entry rounds tokens = Course.starts other rounds tokens := by
  induction rounds generalizing tokens with
  | zero => rfl
  | succ rounds ih =>
    unfold Course.starts Course.behind
    rw [same, funext ih]

/-- The faults of the entries behind a course. -/
theorem surplus_behind (limit : Nat) (kind : ListKind) (path : List Production)
    (course : Course (β × Bool)) (starts : List Token → List (List Token)) :
    EntryList.surplus limit
        ⟨kind, path, course.behind fun found rest => if found.2 then starts rest else []⟩ =
      course.behind fun found rest =>
        if found.2 then EntryList.surplus limit ⟨kind, path, starts rest⟩ else [] := by
  unfold Course.behind
  split
  next =>
    dsimp only
    split
    next => rfl
    next => exact EntryList.surplus_nil limit kind path
  next => exact EntryList.surplus_nil limit kind path

/-- The entries of a list owe the reports of those that are beyond the limit. -/
theorem entries {entry : Option Nat → List Token → Course (β × Bool)}
    (coherent : ∀ tokens, Coherent (fun _ => []) fun limit => entry limit tokens)
    (kind : ListKind) (path : List Production) (rounds : Nat) (values : List β)
    (tokens : List Token) :
    Coherent (fun limit => EntryList.surplus (limit - values.length)
        ⟨kind, path, Course.starts (entry none) rounds tokens⟩)
      fun limit => Course.entries kind path limit (entry limit) rounds values tokens := by
  induction rounds generalizing values tokens with
  | zero =>
    refine (Coherent.glance [] rfl fun fault stopped => ?_).owing fun limit => ?_
    · obtain rfl := Except.error.inj stopped
      rfl
    · exact (EntryList.surplus_nil _ kind path).symm
  | succ rounds ih =>
    -- Behind the beginning of an entry, what the entries behind it owe is owed.
    have tail (rest : List Token) : Coherent
        (fun limit => [] ++ (entry none rest).behind fun found rest =>
          if found.2 then EntryList.surplus (limit - (values.length + 1))
            ⟨kind, path, Course.starts (entry none) rounds rest⟩ else [])
        fun limit => (entry limit rest).andThen fun found rest =>
          if found.2 then
            Course.entries kind path limit (entry limit) rounds (found.1 :: values) rest
          else .glance [] ⟨[], .ok ((found.1 :: values).reverse, rest)⟩ := by
      refine (coherent rest).andThen fun found rest => ?_
      cases found.2 with
      | true => exact ih (found.1 :: values) rest
      | false => exact Coherent.glance [] rfl nofun
    refine ((beginning kind path values.length tokens).andThen fun _ rest => tail rest).owing
      fun limit => ?_
    rw [Course.starts, EntryList.surplus_cons, surplus_behind]
    rfl

/-- A list with its entries is coherent. -/
theorem listed {entry : Option Nat → List Token → Course (β × Bool)}
    (coherent : ∀ tokens, Coherent (fun _ => []) fun limit => entry limit tokens)
    (kind : ListKind) (path : List Production) (rounds : Nat) (tokens : List Token) :
    Coherent (fun _ => []) fun limit =>
      Course.listed kind path limit (entry limit) rounds tokens := by
  have read := entries coherent kind path rounds [] tokens
  have same (limit : Option Nat) :
      Course.starts (entry limit) rounds tokens = Course.starts (entry none) rounds tokens := by
    refine starts_congr (fun tokens => ?_) rounds tokens
    rw [(coherent tokens).way limit]
  constructor
  · intro limit
    unfold Course.listed
    rw [read.way limit, same]
  · exact read.others
  · exact read.surplus
  · exact read.halts
  · exact read.settles

end Coherent

end KoreanLox
