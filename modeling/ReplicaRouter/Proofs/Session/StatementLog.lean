import Mathlib.Data.List.Basic
import ReplicaRouter.Proofs.Session.StepMoves

/-! # The statement log

A server's log holds whole transactions. `Session.statements_run`: after any run, it is the
concatenation, in the order of the commits that were answered as done, of what the committed
transaction executed, and the order in which executions of different transactions alternate makes no
difference.

The invariant is `LogOf`. It relates what was done so far to the books: a live transaction's pending
statements are those it executed, the committed transactions are those whose commit was answered,
each of them once, and the log is made of them. A transaction that is not committed is in no log,
however it ended.
-/

namespace ReplicaRouter

namespace Entry

/-- The transaction that the entry commits. -/
def committed? (e : Entry) : Option Nat :=
  match e.deed with
  | .committed => some e.id
  | .executed _ => none

/-- The statement that the entry executes on a transaction. -/
def executed? (id : Nat) (e : Entry) : Option String :=
  match e.deed with
  | .committed => none
  | .executed statement => if e.id = id then some statement else none

end Entry

/-- The transactions committed, in the order of their commits. -/
def committed (h : List Entry) : List Nat := h.filterMap Entry.committed?

/-- The statements executed on a transaction, in order. -/
def executed (h : List Entry) (id : Nat) : List String := h.filterMap (Entry.executed? id)

/-- Whether the transaction at a place is on a server. -/
def isOn (transactions : List Transaction) (addr : String) (id : Nat) : Bool :=
  transactions[id]?.any fun t => t.server = addr

/-- The statements that wait, while the transaction is live. -/
def Phase.pending? : Phase → Option (List String)
  | .live pending _ => some pending
  | .finished _ => none

/-- What was done accounts for every log. -/
structure LogOf (h : List Entry) (b : Books) : Prop where
  log : ∀ addr, (b.account addr).statements =
    ((committed h).filter (isOn b.transactions addr)).flatMap (executed h)
  pending : ∀ id t p, b.transactions[id]? = some t → t.phase.pending? = some p →
    p = executed h id
  committed_iff : ∀ id, id ∈ committed h ↔
    ∃ t, b.transactions[id]? = some t ∧ t.phase = .finished .committed
  nodup : (committed h).Nodup
  beyond : ∀ id, b.transactions.length ≤ id → executed h id = []

/-! ## What a change does to the log -/

/-- A change executes a statement, commits what waits, or shows in no log. -/
theorem Change.log_cases {now : Nat} {t t' : Transaction} {deed : Option Deed}
    {f : Account → Account} (hc : Change now t deed t' f) :
    (∃ statement pending loan, deed = some (.executed statement) ∧ f = id ∧
      t.phase = .live pending loan ∧ t'.phase = .live (pending ++ [statement]) loan) ∨
    (∃ pending, deed = some .committed ∧ f = .commit pending ∧ t.phase = .live pending .home ∧
      t'.phase = .finished .committed) ∨
    (deed = none ∧ (∀ a, (f a).statements = a.statements) ∧
      (∀ p, t'.phase.pending? = some p → t.phase.pending? = some p) ∧
      (t'.phase = .finished .committed ↔ t.phase = .finished .committed)) := by
  cases hc with
  | execute statement ht hd => exact .inl ⟨statement, _, _, rfl, rfl, ht, rfl⟩
  | commit ht hd => exact .inr (.inl ⟨_, rfl, rfl, ht, rfl⟩)
  | disown hl => exact .inr (.inr ⟨rfl, fun _ => rfl, fun _ h => h, Iff.rfl⟩)
  | lend ho ht => exact .inr (.inr ⟨rfl, fun _ => rfl, by simp [ht, Phase.pending?], by simp [ht]⟩)
  | giveBack ht => exact .inr (.inr ⟨rfl, fun _ => rfl, by simp [ht, Phase.pending?], by simp [ht]⟩)
  | await ht he hd =>
    exact .inr (.inr ⟨rfl, fun _ => rfl, by simp [ht, Phase.pending?], by simp [ht]⟩)
  | refuse ht hd => exact .inr (.inr ⟨rfl, fun _ => rfl, by simp [Phase.pending?], by simp [ht]⟩)
  | rollBack ht => exact .inr (.inr ⟨rfl, fun _ => rfl, by simp [Phase.pending?], by simp [ht]⟩)
  | expire ht he hd =>
    exact .inr (.inr ⟨rfl, fun _ => rfl, by simp [Phase.pending?], by simp [ht]⟩)
  | expireLate ht => exact .inr (.inr ⟨rfl, fun _ => rfl, by simp [Phase.pending?], by simp [ht]⟩)

/-- What tells of no deed leaves every log alone. -/
theorem Moves.statements_of_quiet {b b' : Books} (hm : Moves b [] b') (addr : String) :
    (b'.account addr).statements = (b.account addr).statements := by
  refine hm.keep (P := fun h b' => h = [] →
    (b'.account addr).statements = (b.account addr).statements) (h := []) (fun _ => rfl) ?_ rfl
  intro h b e b' ih hs hnil
  obtain ⟨rfl, rfl⟩ := List.append_eq_nil_iff.1 hnil
  rw [← ih rfl]
  generalize he : ([] : List Entry) = e at hs
  cases hs with
  | pass => rfl
  | enter =>
    simp only [recordAt]
    split <;> rfl
  | change ht hc =>
    obtain ⟨_, _, _, rfl, -⟩ | ⟨_, rfl, -⟩ | ⟨rfl, hf, -⟩ := hc.log_cases
    · cases he
    · cases he
    · simp only [recordAt]
      split
      · exact hf _
      · rfl

/-! ## Histories -/

@[simp] theorem committed_append (h h' : List Entry) :
    committed (h ++ h') = committed h ++ committed h' := List.filterMap_append

@[simp] theorem executed_append (h h' : List Entry) (id : Nat) :
    executed (h ++ h') id = executed h id ++ executed h' id := List.filterMap_append

@[simp] theorem committed_executed (time i : Nat) (statement : String) :
    committed [⟨time, i, .executed statement⟩] = [] := rfl

@[simp] theorem committed_committed (time i : Nat) : committed [⟨time, i, .committed⟩] = [i] := rfl

@[simp] theorem executed_executed (time i : Nat) (statement : String) (id : Nat) :
    executed [⟨time, i, .executed statement⟩] id = if i = id then [statement] else [] := by
  by_cases h : i = id <;> simp [executed, Entry.executed?, h]

@[simp] theorem executed_committed (time i id : Nat) :
    executed [⟨time, i, .committed⟩] id = [] := rfl

@[simp] theorem isOn_set {l : List Transaction} {i : Nat} {t t' : Transaction}
    (ht : l[i]? = some t) (hs : t'.server = t.server) : isOn (l.set i t') = isOn l := by
  funext addr id
  have hi := (List.getElem?_eq_some_iff.1 ht).1
  by_cases he : i = id
  · subst he
    simp only [isOn, List.getElem?_set_self hi, ht, Option.any_some, hs]
  · simp [isOn, List.getElem?_set_ne he]

/-! ## The invariant -/

theorem LogOf.start : LogOf [] .blank where
  log _ := rfl
  pending _ _ _ h := by simp [Books.blank] at h
  committed_iff _ := by simp [committed, Books.blank]
  nodup := .nil
  beyond _ _ := rfl

theorem mem_committed_lt {h : List Entry} {b : Books} (hi : LogOf h b) {id : Nat}
    (hc : id ∈ committed h) : id < b.transactions.length := by
  obtain ⟨t, ht, -⟩ := (hi.committed_iff id).1 hc
  exact (List.getElem?_eq_some_iff.1 ht).1

/-- A new transaction has executed nothing. -/
theorem LogOf.enter {h : List Entry} {b : Books} (hi : LogOf h b) (server : String)
    (deadline : Deadline) (expires : Bool) :
    LogOf h { b with
      transactions := b.transactions ++ [{ server, deadline, expires }]
      account := recordAt server .beginOne b.account } where
  log addr := by
    have hs : (recordAt server .beginOne b.account addr).statements =
        (b.account addr).statements := by unfold recordAt; split <;> rfl
    rw [hs, hi.log addr]
    congr 1
    refine List.filter_congr fun id hid => ?_
    simp only [isOn, List.getElem?_append_left (mem_committed_lt hi hid)]
  pending id t p ht hp := by
    rcases getElem?_concat.1 ht with ht | ⟨rfl, rfl⟩
    · exact hi.pending id t p ht hp
    · rw [hi.beyond _ (Nat.le_refl _)]
      exact (Option.some.inj hp).symm
  committed_iff id := by
    rw [hi.committed_iff id]
    constructor
    · rintro ⟨t, ht, hp⟩
      exact ⟨t, getElem?_concat.2 (.inl ht), hp⟩
    · rintro ⟨t, ht, hp⟩
      rcases getElem?_concat.1 ht with ht | ⟨-, rfl⟩
      · exact ⟨t, ht, hp⟩
      · cases hp
  nodup := hi.nodup
  beyond id hid := hi.beyond id (by simp at hid; omega)

section
variable {h : List Entry} {b : Books} (hi : LogOf h b) {i : Nat} {t t' : Transaction}
  (ht : b.transactions[i]? = some t)
include hi ht

theorem LogOf.not_mem_committed {pending : List String} {loan : Loan}
    (hp : t.phase = .live pending loan) : i ∉ committed h := by
  intro hc
  obtain ⟨u, hu, hup⟩ := (hi.committed_iff i).1 hc
  rw [ht] at hu
  cases hu
  rw [hp] at hup
  cases hup

/-- The committed transactions after one of them changed. -/
theorem LogOf.committed_set (id : Nat) :
    (∃ u, (b.transactions.set i t')[id]? = some u ∧ u.phase = .finished .committed) ↔
      id = i ∧ t'.phase = .finished .committed ∨ id ≠ i ∧ id ∈ committed h := by
  simp only [getElem?_set_of ht, hi.committed_iff]
  constructor
  · rintro ⟨u, ⟨rfl, rfl⟩ | ⟨hne, hu⟩, hup⟩
    · exact .inl ⟨rfl, hup⟩
    · exact .inr ⟨hne, u, hu, hup⟩
  · rintro (⟨rfl, hup⟩ | ⟨hne, u, hu, hup⟩)
    · exact ⟨t', .inl ⟨rfl, rfl⟩, hup⟩
    · exact ⟨u, .inr ⟨hne, hu⟩, hup⟩

variable (hs : t'.server = t.server)
include hs

/-- An executed statement joins those that wait. -/
theorem LogOf.execute {statement : String} {pending : List String} {loan : Loan}
    (hp : t.phase = .live pending loan) (hp' : t'.phase = .live (pending ++ [statement]) loan)
    (time : Nat) :
    LogOf (h ++ [⟨time, i, .executed statement⟩])
      { b with transactions := b.transactions.set i t' } where
  log addr := by
    have hnot := hi.not_mem_committed ht hp
    simp only [committed_append, committed_executed, List.append_nil, isOn_set ht hs, hi.log addr]
    -- no committed transaction has executed anything new
    refine List.flatMap_congr fun id hid => ?_
    have hne : i ≠ id := fun he => hnot (he ▸ (List.mem_filter.1 hid).1)
    simp [hne]
  pending id u p hu hup := by
    rcases (getElem?_set_of ht).1 hu with ⟨rfl, rfl⟩ | ⟨hne, hu⟩
    · rw [hp'] at hup
      simp [← Option.some.inj hup, ← hi.pending id t pending ht (by rw [hp]; rfl)]
    · simp [Ne.symm hne, hi.pending id u p hu hup]
  committed_iff id := by
    have hnot := hi.not_mem_committed ht hp
    rw [hi.committed_set ht, hp']
    simp only [committed_append, committed_executed, List.append_nil]
    exact ⟨fun hc => .inr ⟨fun he => hnot (he ▸ hc), hc⟩, fun hc => hc.elim nofun fun hc => hc.2⟩
  nodup := by simpa using hi.nodup
  beyond id hid := by
    have hlt := (List.getElem?_eq_some_iff.1 ht).1
    simp only [List.length_set] at hid
    simp [hi.beyond id hid, show i ≠ id by omega]

/-- A commit appends what waits to the log of the transaction's server. -/
theorem LogOf.commit {pending : List String} (hp : t.phase = .live pending .home)
    (hp' : t'.phase = .finished .committed) (time : Nat) :
    LogOf (h ++ [⟨time, i, .committed⟩])
      { b with
        transactions := b.transactions.set i t'
        account := recordAt t.server (.commit pending) b.account } where
  log addr := by
    have hon : isOn b.transactions addr i = decide (t.server = addr) := by simp [isOn, ht]
    have hex : executed (h ++ [⟨time, i, .committed⟩]) = executed h := funext fun id => by simp
    rw [hex, isOn_set ht hs, committed_append, committed_committed, List.filter_append,
      List.flatMap_append, ← hi.log addr]
    by_cases ha : addr = t.server
    · subst ha
      simp [recordAt, Account.commit, hon, ← hi.pending i t pending ht (by rw [hp]; rfl)]
    · simp [recordAt, ha, hon, Ne.symm ha]
  pending id u p hu hup := by
    rcases (getElem?_set_of ht).1 hu with ⟨rfl, rfl⟩ | ⟨hne, hu⟩
    · rw [hp'] at hup; cases hup
    · simp [hi.pending id u p hu hup]
  committed_iff id := by
    have hnot := hi.not_mem_committed ht hp
    rw [hi.committed_set ht]
    simp only [committed_append, committed_committed, List.mem_append, List.mem_singleton, hp']
    constructor
    · rintro (hc | rfl)
      · exact .inr ⟨fun he => hnot (he ▸ hc), hc⟩
      · exact .inl ⟨rfl, trivial⟩
    · rintro (⟨rfl, -⟩ | ⟨-, hc⟩)
      · exact .inr rfl
      · exact .inl hc
  nodup := by
    have hnot := hi.not_mem_committed ht hp
    simp only [committed_append, committed_committed]
    exact List.nodup_append.2 ⟨hi.nodup, by simp, fun a ha c hc he => by simp_all⟩
  beyond id hid := by
    simp only [List.length_set] at hid
    simp [hi.beyond id hid]

/-- Any other change shows in no log. -/
theorem LogOf.quiet {f : Account → Account} (hf : ∀ a, (f a).statements = a.statements)
    (hp : ∀ p, t'.phase.pending? = some p → t.phase.pending? = some p)
    (hc : t'.phase = .finished .committed ↔ t.phase = .finished .committed) :
    LogOf h
      { b with
        transactions := b.transactions.set i t'
        account := recordAt t.server f b.account } where
  log addr := by
    have ha : (recordAt t.server f b.account addr).statements = (b.account addr).statements := by
      unfold recordAt
      split
      · exact hf _
      · rfl
    rw [ha, hi.log addr, isOn_set ht hs]
  pending id u p hu hup := by
    rcases (getElem?_set_of ht).1 hu with ⟨rfl, rfl⟩ | ⟨-, hu⟩
    · exact hi.pending id t p ht (hp p hup)
    · exact hi.pending id u p hu hup
  committed_iff id := by
    rw [hi.committed_set ht, hc]
    by_cases he : id = i
    · subst he
      simp [hi.committed_iff, ht]
    · simp [he]
  nodup := hi.nodup
  beyond id hid := hi.beyond id (by simpa using hid)

end

theorem LogOf.move {h e : List Entry} {b b' : Books} (hi : LogOf h b) (hm : Move b e b') :
    LogOf (h ++ e) b' := by
  cases hm with
  | pass hn =>
    rw [List.append_nil]
    exact ⟨hi.log, hi.pending, hi.committed_iff, hi.nodup, hi.beyond⟩
  | enter he =>
    rw [List.append_nil]
    exact hi.enter _ _ _
  | change ht hc =>
    rcases hc.log_cases with ⟨statement, pending, loan, rfl, rfl, hp, hp'⟩ |
      ⟨pending, rfl, rfl, hp, hp'⟩ | ⟨rfl, hf, hp, hcom⟩
    · rw [recordAt_id]
      exact hi.execute ht hc.later.server hp hp' _
    · exact hi.commit ht hc.later.server hp hp' _
    · rw [Option.toList_none, List.map_nil, List.append_nil]
      exact hi.quiet ht hc.later.server hf hp hcom

namespace Session

theorem logOf_run (g : Generator) (offset : Int) (steps : List Step) :
    LogOf ((fresh g offset).history steps) ((fresh g offset).run steps).2.books :=
  (run_moves steps (fresh g offset)).keep LogOf.start LogOf.move

/-! ## Alternating executions -/

end Session

/-- The transaction after an attempt to execute a statement on it. -/
def Transaction.attempt (now : Nat) (t : Transaction) (statement : String) : Transaction :=
  if t.owned then
    match t.execute now statement with
    | .ok t' => t'
    | .error _ => t
  else t

/-- Executions of statements, each on the transaction at a place. -/
def executions (xs : List (Nat × String)) : List Step :=
  xs.map fun x => .execute x.1 x.2

/-- The attempts reach each transaction in the order of its own statements. -/
theorem getElem?_attempts (now id : Nat) :
    ∀ (xs : List (Nat × String)) (l : List Transaction),
      (xs.foldl (fun l x => l.modify x.1 (·.attempt now x.2)) l)[id]? =
        l[id]?.map fun t => ((xs.filter (·.1 == id)).map (·.2)).foldl (Transaction.attempt now) t
  | [], l => by simp
  | x :: xs, l => by
    rw [List.foldl_cons, getElem?_attempts now id xs, List.getElem?_modify]
    by_cases h : x.1 = id
    · simp [h, Function.comp_def]
    · simp [h]

namespace Session

theorem modify_eq_set_of {l : List Transaction} {i : Nat} {t : Transaction}
    (ht : l[i]? = some t) (f : Transaction → Transaction) : l.modify i f = l.set i (f t) := by
  obtain ⟨hi, rfl⟩ := List.getElem?_eq_some_iff.1 ht
  apply List.ext_getElem?
  intro id
  rw [List.getElem?_modify, List.getElem?_set]
  by_cases h : i = id
  · subst h; simp [hi]
  · simp [h]

theorem step_execute (s : Session) (id : Nat) (statement : String) :
    (s.step (.execute id statement)).2 =
      { s with transactions := s.transactions.modify id (·.attempt s.clock statement) } := by
  simp only [step, onTransaction]
  rcases ht : s.transactions[id]? with _ | t
  · rw [List.modify_eq_self (List.getElem?_eq_none_iff.1 ht)]
  rw [modify_eq_set_of ht]
  unfold Transaction.attempt
  by_cases ho : t.owned
  · simp only [ho, if_true, execute]
    rcases t.execute s.clock statement with why | t'
    · exact (put_self ht).symm
    · rfl
  · simp only [ho]
    exact (put_self ht).symm

theorem run_executions : ∀ (xs : List (Nat × String)) (s : Session),
    (s.run (executions xs)).2 =
      { s with
        transactions := xs.foldl (fun l x => l.modify x.1 (·.attempt s.clock x.2)) s.transactions }
  | [], _ => rfl
  | x :: xs, s => by
    have h := run_executions xs (s.step (.execute x.1 x.2)).2
    rw [step_execute] at h
    simp only [executions, List.map_cons, run, List.foldl_cons]
    rw [step_execute]
    exact h

/-- Executions of different transactions may alternate in any way. -/
theorem run_executions_congr {xs ys : List (Nat × String)}
    (h : ∀ id, xs.filter (·.1 == id) = ys.filter (·.1 == id)) (s : Session) :
    (s.run (executions xs)).2 = (s.run (executions ys)).2 := by
  rw [run_executions, run_executions]
  congr 1
  apply List.ext_getElem?
  intro id
  rw [getElem?_attempts, getElem?_attempts, h id]

/-- **A log holds whole transactions.** After any run a server's log is what its committed
transactions executed, transaction by transaction in the order of their commits; each commits once,
and those that have not committed are in no log. Executions of different transactions may alternate
in any way and leave the same session, whatever comes next. -/
theorem statements_run (g : Generator) (offset : Int) (steps : List Step) :
    let h := (fresh g offset).history steps
    let s := ((fresh g offset).run steps).2
    (∀ addr, (s.cluster.get addr).statements =
      ((committed h).filter (isOn s.transactions addr)).flatMap (executed h)) ∧
    (committed h).Nodup ∧
    (∀ id, id ∈ committed h ↔
      ∃ t, s.transactions[id]? = some t ∧ t.phase = .finished .committed) ∧
    ∀ (xs ys : List (Nat × String)) (rest : List Step),
      (∀ id, xs.filter (·.1 == id) = ys.filter (·.1 == id)) →
        (s.run (executions xs ++ rest)).2 = (s.run (executions ys ++ rest)).2 := by
  intro h s
  have hi := logOf_run g offset steps
  refine ⟨hi.log, hi.nodup, hi.committed_iff, fun xs ys rest hxy => ?_⟩
  rw [run_append, run_append, run_executions_congr hxy]

/-- Two transactions on a server that execute in turns. -/
theorem statements_run_alternating :
    let s := ((fresh ⟨0⟩ 0).run [.beginOn "m:1" ⟨5000000⟩, .beginOn "m:1" ⟨5000000⟩]).2
    let xs := [(0, "a"), (1, "b"), (0, "c")]
    let ys := [(1, "b"), (0, "a"), (0, "c")]
    (∀ id, xs.filter (·.1 == id) = ys.filter (·.1 == id)) ∧
      (s.run (executions xs ++ [.commit 1, .commit 0])).2 =
        (s.run (executions ys ++ [.commit 1, .commit 0])).2 ∧
      ((s.run (executions xs ++ [.commit 1, .commit 0])).2.cluster.get "m:1").statements =
        ["b", "a", "c"] := by
  intro s xs ys
  have h : ∀ id, xs.filter (·.1 == id) = ys.filter (·.1 == id) := by
    intro id
    rcases id with _ | _ | id <;> rfl
  exact ⟨h, (statements_run ⟨0⟩ 0 _).2.2.2 xs ys _ h, by unfold s xs; decide +kernel⟩

end Session

end ReplicaRouter
