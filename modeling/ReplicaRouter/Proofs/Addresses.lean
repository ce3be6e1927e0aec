import Mathlib.Data.List.Infix
import Mathlib.Data.List.TakeWhile
import ReplicaRouter.Cluster

/-!
# Addresses in data source names

Nothing in a data source name is escaped but its time zone, and still every endpoint names a server:
an opening that stands earlier than the one written for the address only makes the cut start
earlier, and the parenthesis written after the address still closes it.

* `Dsn.afterOpening?_append`: where the cut starts is settled by what stands before the address.
* `Dsn.afterOpening?_of_not_infix`: it starts right at the address if no other opening stands there,
  and the marks around the password belong to none (`Dsn.infix_append_cons_iff`).
* `Endpoint.cut_dsn`: so the address that is cut out depends neither on the time zone nor, unless
  the user or the password holds an opening, on anything but the address.
-/

namespace ReplicaRouter

namespace Dsn

/-- The mark before the address. -/
def opening : List Char := ['t', 'c', 'p', '(']

/-! ## Openings -/

theorem prefix_of_not_mem {c : Char} {p a b : List Char} (hc : c ∉ p) (h : p <+: a ++ c :: b) :
    p <+: a := by
  rcases Nat.lt_or_ge a.length p.length with hlt | hle
  · have hmark : a ++ [c] <+: a ++ c :: b := ⟨b, by simp⟩
    have hlen : (a ++ [c]).length ≤ p.length := by
      rw [List.length_append, List.length_singleton]
      exact hlt
    have hpast : a ++ [c] <+: p := List.prefix_of_prefix_length_le hmark h hlen
    exact absurd (hpast.subset (by simp)) hc
  · exact List.prefix_of_prefix_length_le h (List.prefix_append a _) hle

/-- A text without a mark stands on one side of it. -/
theorem infix_append_cons_iff {c : Char} {p a b : List Char} (hc : c ∉ p) :
    p <:+: a ++ c :: b ↔ p <:+: a ∨ p <:+: b := by
  constructor
  · induction a with
    | nil =>
      intro h
      rcases List.infix_cons_iff.1 h with h | h
      · exact .inl (prefix_of_not_mem (a := []) hc h).isInfix
      · exact .inr h
    | cons x a ih =>
      intro h
      rcases List.infix_cons_iff.1 h with h | h
      · exact .inl (prefix_of_not_mem (a := x :: a) hc h).isInfix
      · exact (ih h).imp_left List.infix_cons
  · rintro (h | h)
    · exact h.trans (List.prefix_append a _).isInfix
    · exact h.trans ⟨a ++ [c], [], by simp⟩

theorem afterOpening?_opening (rest : List Char) :
    afterOpening? (opening ++ rest) = some rest := rfl

theorem afterOpening?_cons {c : Char} {cs : List Char} (h : ¬ opening <+: c :: cs) :
    afterOpening? (c :: cs) = afterOpening? cs := by
  rw [afterOpening?]
  rintro rest rfl rfl
  exact h ⟨rest, rfl⟩

theorem opening_prefix_append {cs more : List Char} (hlen : opening.length ≤ cs.length)
    (h : opening <+: cs ++ more) : opening <+: cs :=
  List.prefix_of_prefix_length_le h (List.prefix_append cs more) hlen

/-- Before an opening, where the first one stands does not depend on what follows. -/
theorem afterOpening?_append (before : List Char) :
    ∃ skipped, ∀ after, afterOpening? (before ++ (opening ++ after)) = some (skipped ++ after) := by
  induction before with
  | nil => exact ⟨[], afterOpening?_opening⟩
  | cons c before ih =>
    by_cases h : opening <+: c :: before ++ opening
    · obtain ⟨skipped, hs⟩ := h
      refine ⟨skipped, fun after => ?_⟩
      rw [← List.append_assoc, ← hs, List.append_assoc, afterOpening?_opening]
    · obtain ⟨skipped, hs⟩ := ih
      refine ⟨skipped, fun after => ?_⟩
      have hnot : ¬ opening <+: c :: (before ++ (opening ++ after)) := by
        intro hp
        rw [← List.append_assoc] at hp
        have hlen : opening.length ≤ (c :: before ++ opening).length := by
          rw [List.length_append]
          exact Nat.le_add_left _ _
        exact h (opening_prefix_append hlen hp)
      rw [List.cons_append, afterOpening?_cons hnot, hs]

/-- An opening is found where it stands if no other reaches into what stands before it. -/
theorem afterOpening?_of_not_infix {before : List Char}
    (h : ¬ opening <:+: before ++ ['t', 'c', 'p']) (after : List Char) :
    afterOpening? (before ++ (opening ++ after)) = some after := by
  induction before with
  | nil => exact afterOpening?_opening after
  | cons c before ih =>
    have hnot : ¬ opening <+: c :: (before ++ (opening ++ after)) := by
      intro hp
      have hsplit : c :: (before ++ (opening ++ after)) =
          c :: before ++ ['t', 'c', 'p'] ++ '(' :: after := by simp [opening]
      rw [hsplit] at hp
      exact h (opening_prefix_append (by simp [opening]) hp).isInfix
    rw [List.cons_append, afterOpening?_cons hnot]
    exact ih fun hlater => h (List.infix_cons hlater)

theorem untilClosing?_append (cs rest : List Char) :
    untilClosing? (cs ++ ')' :: rest) = some (cs.takeWhile (· ≠ ')')) := by
  induction cs with
  | nil => rfl
  | cons c cs ih =>
    by_cases hc : c = ')'
    · subst hc
      rfl
    · rw [List.cons_append, untilClosing?, ih]
      · simp [hc]
      · exact hc

end Dsn

/-! ## Endpoints -/

namespace Endpoint

/-- What is written before the opening of the address. -/
def credentials (e : Endpoint) : List Char :=
  e.user.toList ++ ':' :: (e.password.toList ++ ['@'])

theorem toList_dsn (e : Endpoint) :
    ∃ options, e.dsn.toList =
      e.credentials ++ (Dsn.opening ++ (e.addr.toList ++ ')' :: options)) :=
  ⟨"/?charset=utf8&loc=".toList ++ (FormEncoded.encode e.timezone ++ "&parseTime=true".toList),
    by simp [dsn, credentials, Dsn.opening]⟩

/-- The colon and the at sign belong to no opening. -/
theorem not_infix_credentials {e : Endpoint} (hu : ¬ Dsn.opening <:+: e.user.toList)
    (hp : ¬ Dsn.opening <:+: e.password.toList) :
    ¬ Dsn.opening <:+: e.credentials ++ ['t', 'c', 'p'] := by
  have hsplit : e.credentials ++ ['t', 'c', 'p'] =
      e.user.toList ++ ':' :: (e.password.toList ++ '@' :: ['t', 'c', 'p']) := by
    simp [credentials]
  rw [hsplit, Dsn.infix_append_cons_iff (by decide), Dsn.infix_append_cons_iff (by decide)]
  rintro (h | h | h)
  · exact hu h
  · exact hp h
  · exact absurd h.length_le (by decide)

/-- What is cut out of an endpoint's data source name, whatever its time zone. -/
theorem cut_dsn (e : Endpoint) :
    ∃ skipped, (∀ zone, Dsn.address? { e with timezone := zone }.dsn =
        some (String.ofList ((skipped ++ e.addr.toList).takeWhile (· ≠ ')')))) ∧
      (¬ Dsn.opening <:+: e.user.toList → ¬ Dsn.opening <:+: e.password.toList → skipped = []) := by
  obtain ⟨skipped, hs⟩ := Dsn.afterOpening?_append e.credentials
  refine ⟨skipped, fun zone => ?_, fun hu hp => ?_⟩
  · obtain ⟨options, ho⟩ := toList_dsn { e with timezone := zone }
    have hopen := hs (e.addr.toList ++ ')' :: options)
    rw [← List.append_assoc skipped] at hopen
    rw [Dsn.address?, ho]
    show (Dsn.afterOpening? (e.credentials ++ _)).bind _ = _
    rw [hopen, Option.bind_some, Dsn.untilClosing?_append]
    rfl
  · have hfirst := Dsn.afterOpening?_of_not_infix (not_infix_credentials hu hp) []
    rw [hs []] at hfirst
    simpa using hfirst

/-- Every endpoint names a server, whatever its fields hold. -/
theorem isSome_address?_dsn (e : Endpoint) : (Dsn.address? e.dsn).isSome = true := by
  obtain ⟨skipped, hcut, -⟩ := e.cut_dsn
  exact Option.isSome_iff_exists.2 ⟨_, hcut e.timezone⟩

/-- The server that the endpoint's data source name gives. -/
def server (e : Endpoint) : String := (Dsn.address? e.dsn).get e.isSome_address?_dsn

theorem address?_dsn (e : Endpoint) : Dsn.address? e.dsn = some e.server :=
  (Option.some_get e.isSome_address?_dsn).symm

theorem ofList_takeWhile_eq_iff (s : String) :
    String.ofList (s.toList.takeWhile (· ≠ ')')) = s ↔ ')' ∉ s.toList := by
  rw [← String.toList_inj, String.toList_ofList, List.takeWhile_eq_self_iff]
  constructor
  · intro h hm
    simpa using h ')' hm
  · intro h c hc
    simpa using fun heq : c = ')' => h (heq ▸ hc)

/-- **An endpoint's data source name gives a server**, whatever its fields hold: opening it can be
refused by that server and in no other way. If neither the user nor the password holds an opening,
the server is told by the address up to its first closing parenthesis, so by the whole address
exactly if it has none. The time zone has no part in it. -/
theorem connect_dsn (e : Endpoint) :
    (∃ addr, Dsn.address? e.dsn = some addr ∧ ∀ c : Cluster, (c.connect e.dsn).1 =
      if (c.get addr).refusesOpen then .error (.refused addr) else .ok addr) ∧
    (¬ Dsn.opening <:+: e.user.toList → ¬ Dsn.opening <:+: e.password.toList →
      Dsn.address? e.dsn = some (String.ofList (e.addr.toList.takeWhile (· ≠ ')'))) ∧
      (Dsn.address? e.dsn = some e.addr ↔ ')' ∉ e.addr.toList)) ∧
    ∀ zone, Dsn.address? { e with timezone := zone }.dsn = Dsn.address? e.dsn := by
  obtain ⟨skipped, hcut, hnone⟩ := e.cut_dsn
  refine ⟨⟨e.server, e.address?_dsn, fun c => ?_⟩, fun hu hp => ?_, fun zone => ?_⟩
  · rw [Cluster.connect, e.address?_dsn]
    simp only
    split <;> rfl
  · have haddr : Dsn.address? e.dsn = _ := hcut e.timezone
    rw [hnone hu hp, List.nil_append] at haddr
    refine ⟨haddr, ?_⟩
    rw [haddr, Option.some.injEq, ofList_takeWhile_eq_iff]
  · rw [hcut zone, ← hcut e.timezone]

/-- The user, the colon and the password spell an opening with a mark inside, and the address and
the time zone hold marks of their own. -/
theorem connect_dsn_straddled :
    let e : Endpoint :=
      { addr := "db:1)tcp(x", user := "t", password := "cp(t", timezone := "tcp(y)" }
    ¬ Dsn.opening <:+: e.user.toList ∧ ¬ Dsn.opening <:+: e.password.toList ∧
      Dsn.address? e.dsn = some "db:1" ∧ Dsn.address? e.dsn ≠ some e.addr := by
  intro e
  have hu : ¬ Dsn.opening <:+: e.user.toList := by decide
  have hp : ¬ Dsn.opening <:+: e.password.toList := by decide
  obtain ⟨-, hfields, -⟩ := connect_dsn e
  obtain ⟨haddr, hwhole⟩ := hfields hu hp
  refine ⟨hu, hp, haddr.trans (by decide), ?_⟩
  rw [ne_eq, hwhole]
  decide

end Endpoint

end ReplicaRouter
