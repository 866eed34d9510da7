import Nexora.Foundations.Interleaving

/-!
# Requests that lock what they read

A request reads the rows that it is about, `FOR UPDATE` and one after another, and keeps what
it has read.  What it finds in one row may tell it which rows come next.  Then it reads the rest,
works out what to write, and commits.

`LockedReads` says what the requests of a service read and write.  When none writes a row that
it has not locked, a row that one has read is the same when it commits, and so is what it has
worked out from such rows (`LockedReads.Rules`).  What the requests keep one after another they
then keep in every interleaving (`LockedReads.Rules.sound`).
-/

namespace Foundations

/-- The requests of a service. -/
structure LockedReads (S Call Row Seen View Choice : Type) where
  /-- The rows that a request locks, as it finds the state when it begins. -/
  plan : S → Call → List Row
  /-- The rows that it locks after one that it has read. -/
  more : Call → Seen → List Row
  read : S → Row → Option Seen
  row : Seen → Row
  /-- What else a request reads, once it holds its rows. -/
  view : S → Call → View
  /-- The state with what it writes, unless it raises. -/
  write : S → Call → List Seen → View → Choice → Option S

inductive LockedPhase (Call Row Seen View Choice : Type) where
  /-- Some rows are read and locked, and others are left. -/
  | reading (call : Call) (seen : List Seen) (todo : List Row)
  /-- All rows are read, and what else the request reads. -/
  | writing (call : Call) (seen : List Seen) (view : View) (choice : Choice)
  /-- A row is not there. -/
  | raised (seen : List Seen)

variable {S Call Row Seen View Choice : Type}

namespace LockedPhase

def seen : LockedPhase Call Row Seen View Choice → List Seen
  | reading _ seen _ => seen
  | writing _ seen _ _ => seen
  | raised seen => seen

/-- The rows that are left to read. -/
def todo : LockedPhase Call Row Seen View Choice → List Row
  | reading _ _ todo => todo
  | writing .. | raised _ => []

/-- The request of a phase that may still commit. -/
def call : LockedPhase Call Row Seen View Choice → Option Call
  | reading call .. | writing call .. => some call
  | raised _ => none

end LockedPhase

namespace LockedReads

variable (service : LockedReads S Call Row Seen View Choice)

/-- The next statement: a row is read and locked, and after the last one comes the rest. -/
def run (s : S) (phase : LockedPhase Call Row Seen View Choice) (choice : Choice) :
    Option (S × LockedPhase Call Row Seen View Choice) :=
  match phase with
  | .reading call seen (row :: todo) =>
      match service.read s row with
      | some r => some (s, .reading call (seen ++ [r]) (service.more call r ++ todo))
      | none => some (s, .raised seen)
  | .reading call seen [] => some (s, .writing call seen (service.view s call) choice)
  | .writing .. | .raised _ => none

/-- The end of the transaction. -/
def finish (s : S) : LockedPhase Call Row Seen View Choice → Option S
  | .reading .. => none
  | .writing call seen view choice => some ((service.write s call seen view choice).getD s)
  | .raised _ => some s

def protocol : Protocol S Call (LockedPhase Call Row Seen View Choice) Choice Row where
  start s call := .reading call [] (service.plan s call)
  run := service.run
  finish := service.finish
  locks phase := phase.seen.map fun r => (service.row r, .update)

/-- The rows that a request locks when nothing changes meanwhile. -/
inductive Locks (s : S) (call : Call) : Row → Prop
  | plan {row : Row} (hrow : row ∈ service.plan s call) : Locks s call row
  | more {r : Seen} {row : Row} (hlocks : Locks s call (service.row r))
      (hread : service.read s (service.row r) = some r) (hrow : row ∈ service.more call r) :
      Locks s call row

/-- What the writes of a service may do, when the rows are as they were read. -/
structure Rules (Writes : S → Call → S → Prop) : Prop where
  row_of_read : ∀ {s row r}, service.read s row = some r → service.row r = row
  write : ∀ {s call seen choice s'}, (∀ r ∈ seen, service.read s (service.row r) = some r) →
    (∀ row, service.Locks s call row → row ∈ seen.map service.row) →
      service.write s call seen (service.view s call) choice = some s' → s' = s ∨ Writes s call s'
  /-- A request writes no row that it does not lock. -/
  frame : ∀ {s call s' row r}, Writes s call s' → ¬service.Locks s call row →
    service.read s row = some r → service.read s' row = some r
  plan : ∀ {s call s' other row}, Writes s call s' → row ∈ service.plan s' other →
    row ∈ service.plan s other
  /-- What another request has read beside its rows, it still reads. -/
  view : ∀ {s call s' other}, Writes s call s' →
    (∀ row, service.Locks s other row → ¬service.Locks s call row) →
      service.view s' other = service.view s other

/-- What a request has read is still so, and it locks all that it writes. -/
structure Reads (s : S) (phase : LockedPhase Call Row Seen View Choice) : Prop where
  seen : ∀ r ∈ phase.seen, service.read s (service.row r) = some r
  covers : ∀ call ∈ phase.call, ∀ row ∈ service.plan s call,
    row ∈ phase.seen.map service.row ∨ row ∈ phase.todo
  follows : ∀ call ∈ phase.call, ∀ r ∈ phase.seen, ∀ row ∈ service.more call r,
    row ∈ phase.seen.map service.row ∨ row ∈ phase.todo
  viewed : ∀ call seen view choice, phase = .writing call seen view choice →
    view = service.view s call

/-- Where no row leads to another, the rows of a request are those of its plan. -/
theorem locks_iff {service : LockedReads S Call Row Seen View Choice}
    (h : ∀ call r, service.more call r = []) {s : S} {call : Call} {row : Row} :
    service.Locks s call row ↔ row ∈ service.plan s call := by
  refine ⟨fun hlocks => ?_, .plan⟩
  cases hlocks with
  | plan hrow => exact hrow
  | more _ _ hrow =>
      rw [h] at hrow
      cases hrow

variable {service} {Writes : S → Call → S → Prop} {s s' : S}
  {phase phase' other : LockedPhase Call Row Seen View Choice} {choice : Choice}

theorem run_committed (h : service.run s phase choice = some (s', phase')) : s' = s := by
  cases phase with
  | reading call seen todo =>
      cases todo with
      | nil =>
          cases h
          rfl
      | cons row todo =>
          simp only [run] at h
          split at h
          · cases h
            rfl
          · cases h
            rfl
  | writing call seen view choice => cases h
  | raised seen => cases h

theorem Reads.run (hrules : service.Rules Writes) (h : service.Reads s phase)
    (hrun : service.run s phase choice = some (s', phase')) : service.Reads s' phase' := by
  cases phase with
  | reading call seen todo =>
      cases todo with
      | nil =>
          cases hrun
          refine ⟨h.seen, h.covers, h.follows, fun _ _ _ _ heq => ?_⟩
          cases heq
          rfl
      | cons row todo =>
          simp only [LockedReads.run] at hrun
          split at hrun
          next r hread =>
            cases hrun
            have hrow := hrules.row_of_read hread
            -- A row that was seen or left still is, whichever it was.
            have hkept : ∀ row', row' ∈ seen.map service.row ∨ row' ∈ row :: todo →
                row' ∈ (seen ++ [r]).map service.row ∨ row' ∈ service.more call r ++ todo := by
              intro row' hmem
              rw [List.map_append, List.map_singleton, hrow, List.mem_append, List.mem_singleton]
              rcases hmem with hmem | hmem
              · exact .inl (.inl hmem)
              · rcases List.mem_cons.mp hmem with rfl | hmem
                · exact .inl (.inr rfl)
                · exact .inr (List.mem_append_right _ hmem)
            refine ⟨fun r' hr' => ?_, fun call' hcall row' hrow' => ?_,
              fun call' hcall r' hr' row' hrow' => ?_, fun _ _ _ _ heq => ?_⟩
            · rcases List.mem_append.mp hr' with hr' | hr'
              · exact h.seen r' hr'
              · rw [List.mem_singleton.mp hr', hrow]
                exact hread
            · exact hkept row' (h.covers call' hcall row' hrow')
            · rcases List.mem_append.mp hr' with hr' | hr'
              · exact hkept row' (h.follows call' hcall r' hr' row' hrow')
              · cases hcall
                rw [List.mem_singleton.mp hr'] at hrow'
                exact .inr (List.mem_append_left _ hrow')
            · cases heq
          next =>
            cases hrun
            refine ⟨h.seen, fun _ hcall => ?_, fun _ hcall => ?_, fun _ _ _ _ heq => ?_⟩
            · cases hcall
            · cases hcall
            · cases heq
  | writing call seen view choice => cases hrun
  | raised seen => cases hrun

/-- A request that has nothing left to read has locked what it comes to lock. -/
theorem Reads.locks {call : Call} {row : Row} (h : service.Reads s phase)
    (hcall : call ∈ phase.call) (htodo : phase.todo = []) (hlocks : service.Locks s call row) :
    row ∈ phase.seen.map service.row := by
  have hseen : ∀ {row}, row ∈ phase.seen.map service.row ∨ row ∈ phase.todo →
      row ∈ phase.seen.map service.row := by
    intro row hrow
    rw [htodo] at hrow
    exact hrow.resolve_right List.not_mem_nil
  induction hlocks with
  | plan hrow => exact hseen (h.covers call hcall _ hrow)
  | @more r row hlocks hread hrow ih =>
      obtain ⟨r', hr', heq⟩ := List.mem_map.mp ih
      have hread' := h.seen r' hr'
      rw [heq, hread] at hread'
      cases hread'
      exact hseen (h.follows call hcall r hr' row hrow)

/-- What the end of a request makes of the state. -/
theorem Reads.finish (hrules : service.Rules Writes) (h : service.Reads s phase)
    (hfinish : service.finish s phase = some s') :
    s' = s ∨ ∃ call ∈ phase.call, Writes s call s' ∧
      ∀ row, service.Locks s call row → row ∈ phase.seen.map service.row := by
  cases phase with
  | reading call seen todo => cases hfinish
  | raised seen => exact .inl (Option.some.inj hfinish).symm
  | writing call seen view choice =>
      have hcovers : ∀ row, service.Locks s call row → row ∈ seen.map service.row :=
        fun row hlocks => h.locks rfl rfl hlocks
      obtain rfl := h.viewed _ _ _ _ rfl
      cases hwrite : service.write s call seen (service.view s call) choice with
      | none =>
          simp only [LockedReads.finish, hwrite] at hfinish
          exact .inl (Option.some.inj hfinish).symm
      | some written =>
          simp only [LockedReads.finish, hwrite] at hfinish
          cases hfinish
          rcases hrules.write h.seen hcovers hwrite with hsame | hwrites
          · exact .inl hsame
          · exact .inr ⟨call, rfl, hwrites, hcovers⟩

/-- Another request commits. -/
theorem Reads.stable [DecidableEq Row] (hrules : service.Rules Writes) (h : service.Reads s phase)
    (hother : service.Reads s other)
    (hfree : locksConflict (service.protocol.locks other) (service.protocol.locks phase) = false)
    (hfinish : service.finish s phase = some s') : service.Reads s' other := by
  rcases h.finish hrules hfinish with rfl | ⟨call, hcall, hwrites, hlocked⟩
  · exact hother
  have hdisjoint : ∀ row ∈ other.seen.map service.row, ¬service.Locks s call row := by
    intro row hrow hlocks
    obtain ⟨r, hr, rfl⟩ := List.mem_map.mp hrow
    refine notMem_of_update hfree (List.mem_map_of_mem hr) ?_
    rw [show service.protocol.locks phase = phase.seen.map fun r => (service.row r, .update) from rfl,
      List.map_map]
    exact hlocked _ hlocks
  refine ⟨fun r hr => ?_, fun call' hcall' row hrow => ?_, hother.follows,
    fun call' seen view choice heq => ?_⟩
  · exact hrules.frame hwrites (hdisjoint _ (List.mem_map_of_mem hr)) (hother.seen r hr)
  · exact hother.covers call' hcall' row (hrules.plan hwrites hrow)
  · rw [hother.viewed _ _ _ _ heq, hrules.view hwrites]
    intro row hlocks
    subst heq
    exact hdisjoint row (hother.locks rfl rfl hlocks)

/-- What the requests keep one after another, they keep in every interleaving. -/
theorem Rules.sound [DecidableEq Row] (hrules : service.Rules Writes) {I : S → Prop}
    (hI : ∀ s call s', I s → Writes s call s' → I s') :
    service.protocol.Sound (fun _ _ => True) I service.Reads where
  start s call _ := by
    refine ⟨fun r hr => ?_, fun call' hcall row hrow => .inr ?_, fun call' _ r hr => ?_,
      fun _ _ _ _ heq => ?_⟩
    · cases hr
    · cases hcall
      exact hrow
    · cases hr
    · cases heq
  run s phase choice s' phase' h hreads hrun := by
    have hreads' := hreads.run hrules hrun
    obtain rfl := run_committed hrun
    exact ⟨h, hreads'⟩
  run_stable s phase choice s' phase' other _ _ hother hrun := by
    obtain rfl := run_committed hrun
    exact hother
  finish s phase s' h hreads _ hfinish := by
    rcases hreads.finish hrules hfinish with rfl | ⟨call, -, hwrites, -⟩
    · exact h
    · exact hI s call s' h hwrites
  finish_stable s phase s' other _ hreads _ hother hfree hfinish :=
    hreads.stable hrules hother hfree hfinish

/-- The state changes with the write of a request, and in no other way. -/
theorem Rules.step [DecidableEq Row] (hrules : service.Rules Writes) {I : S → Prop}
    {t t' : Interleaved S (LockedPhase Call Row Seen View Choice)} {action : TxAction Call Choice}
    (h : service.protocol.Inv I service.Reads t) (hstep : service.protocol.step t action = some t') :
    t'.committed = t.committed ∨ ∃ call, Writes t.committed call t'.committed := by
  rcases Protocol.step_committed hstep with hsame | ⟨id, tx, htx, hstep⟩
  · exact .inl hsame
  rcases hstep with ⟨choice, phase', -, hrun⟩ | ⟨-, hfinish⟩
  · exact .inl (run_committed hrun)
  · rcases (h.opened tx (Table.get_mem htx).1).finish hrules hfinish with hsame | ⟨call, -, hwrites, -⟩
    · exact .inl hsame
    · exact .inr ⟨call, hwrites⟩

/-- What the requests keep stays so from a state on that was reached. -/
theorem Rules.reaches [DecidableEq Row] (hrules : service.Rules Writes) {I J : S → Prop}
    (hI : ∀ s call s', I s → Writes s call s' → I s')
    {t t' : Interleaved S (LockedPhase Call Row Seen View Choice)}
    (h : service.protocol.Inv J service.Reads t) (ht : I t.committed)
    (hreaches : service.protocol.Reaches t t') : I t'.committed :=
  ((hrules.sound hI).runs hreaches ⟨ht, h.opened, h.exclusive⟩).committed

end LockedReads

end Foundations
