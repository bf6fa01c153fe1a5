import Mathlib
import TrackServer.Proofs.Tokens

/-!
# Proofs/Ownership — a table never confuses two connections

A table is used by operations, one after the other.  Those that change it tell what a token stands
for (`get?_after`): a connection is got under the token it was inserted under, with the changes made
through that token (`Held`), until it is removed, and never again.

That takes one rule of its callers (`Disciplined`): a connection is inserted under a token that was
handed out before, and no other one is.  As tokens are handed out upward (`handedOut_eq`), the rule
is kept by whoever reserves a token for every insertion.

* `never_confuses`: what every operation of such a history answers.
-/

namespace TrackServer.Table

variable {α : Type}

/-! ## Histories -/

/-- **One use of a table.**  A connection that is got for a change may change in any way. -/
inductive Operation (α : Type)
  | reserve
  | insert (token : Token) (connection : α)
  | get (token : Token)
  | modify (token : Token) (change : α → α)
  | remove (token : Token)
  | contains (token : Token)
  | size
  | tokens

/-- What an operation answers. -/
inductive Answer (α : Type)
  | token (token : Token)
  | connection (found : Option α)
  | live (live : Bool)
  | size (size : Nat)
  | tokens (tokens : List Token)

/-- **Use a table.**  Inserting answers with the connection that it replaces, getting one for a
change with the connection as it was, removing with the one that is gone. -/
def perform (table : Table α) : Operation α → Answer α × Table α
  | .reserve => (.token table.reserve.1, table.reserve.2)
  | .insert token connection => (.connection (table.get? token), table.insert token connection)
  | .get token => (.connection (table.get? token), table)
  | .modify token change => (.connection (table.get? token), table.modify token change)
  | .remove token => (.connection (table.get? token), table.remove token)
  | .contains token => (.live (table.contains token), table)
  | .size => (.size table.size, table)
  | .tokens => (.tokens table.tokens, table)

/-- The table after a history, newest operation first. -/
def after : List (Operation α) → Table α
  | [] => empty
  | operation :: earlier => ((after earlier).perform operation).2

/-- What an operation answers after a history. -/
def answer (history : List (Operation α)) (operation : Operation α) : Answer α :=
  ((after history).perform operation).1

/-- The token in an answer. -/
def Answer.tokens? : Answer α → List Token
  | .token t => [t]
  | _ => []

/-- The tokens that a history handed out, in order. -/
def handedOut : List (Operation α) → List Token
  | [] => []
  | operation :: earlier => handedOut earlier ++ (answer earlier operation).tokens?

/-- Whether an operation hands out a token. -/
def Operation.isReserve : Operation α → Bool
  | .reserve => true
  | _ => false

/-- **Each connection is inserted under a token handed out before**, and no other one is. -/
def Disciplined (history : List (Operation α)) : Prop :=
  ∀ later token connection earlier, history = later ++ .insert token connection :: earlier →
    token ∈ handedOut earlier ∧ ∀ other, .insert token other ∉ earlier

variable {table : Table α} {history later earlier : List (Operation α)} {operation : Operation α}
  {token : Token} {connection : α}

theorem disciplined_nil : Disciplined ([] : List (Operation α)) := fun _ _ _ _ h => by simp at h

/-- What was done before was disciplined too. -/
theorem Disciplined.of_append (h : Disciplined (later ++ earlier)) : Disciplined earlier :=
  fun more token connection rest heq =>
    h (later ++ more) token connection rest (by rw [heq, List.append_assoc])

theorem disciplined_cons_iff : Disciplined (operation :: earlier) ↔
    (∀ token connection, operation = .insert token connection →
      token ∈ handedOut earlier ∧ ∀ other, .insert token other ∉ earlier)
        ∧ Disciplined earlier := by
  constructor
  · intro h
    refine ⟨fun token connection heq => h [] token connection earlier (heq ▸ rfl), ?_⟩
    exact @Disciplined.of_append _ [operation] earlier h
  · rintro ⟨hfirst, hrest⟩ later token connection rest heq
    cases later with
    | nil =>
      obtain ⟨rfl, rfl⟩ := List.cons.inj heq
      exact hfirst token connection rfl
    | cons first later => exact hrest later token connection rest (List.cons.inj heq).2

/-! ## Tokens handed out -/

theorem nextToken_perform (table : Table α) (operation : Operation α) :
    (table.perform operation).2.nextToken
      = table.nextToken + if operation.isReserve then 1 else 0 := by
  cases operation <;> rfl

/-- The next token is one more than there were handed out. -/
theorem nextToken_after (history : List (Operation α)) :
    (after history).nextToken = history.countP Operation.isReserve + 1 := by
  induction history with
  | nil => rfl
  | cons operation earlier ih =>
    rw [after, nextToken_perform, ih, List.countP_cons, Nat.add_right_comm]

/-- **Tokens are handed out upward from 1**, each once. -/
theorem handedOut_eq (history : List (Operation α)) :
    handedOut history = List.range' 1 (history.countP Operation.isReserve) := by
  induction history with
  | nil => rfl
  | cons operation earlier ih =>
    rw [handedOut, ih, List.countP_cons]
    cases operation with
    | reserve =>
      have hnext : (answer earlier .reserve).tokens?
          = [1 + earlier.countP Operation.isReserve] := by
        rw [Nat.add_comm, ← nextToken_after]
        rfl
      rw [hnext]
      exact List.range'_1_concat.symm
    | _ => exact List.append_nil _

/-! ## What a token stands for -/

/-- What an operation makes of what a token stands for. -/
def Operation.effect (token : Token) : Operation α → Option α → Option α
  | .insert t connection, held => if token = t then some connection else held
  | .modify t change, held => if token = t then held.map change else held
  | .remove t, held => if token = t then none else held
  | _, held => held

theorem get?_perform (table : Table α) (operation : Operation α) (token : Token) :
    (table.perform operation).2.get? token = operation.effect token (table.get? token) := by
  cases operation with
  | insert t connection => exact get?_insert t token connection
  | modify t change => exact get?_modify t token change
  | remove t => exact get?_remove t token
  | reserve | get | contains | size | tokens => rfl

/-- The change that an operation makes through a token. -/
def Operation.change? (token : Token) : Operation α → Option (α → α)
  | .modify t change => if token = t then some change else none
  | _ => none

/-- **What a history has left under a token**: the connection inserted under it and not removed
since, with the changes made since through this token. -/
def Held (token : Token) (history : List (Operation α)) (connection : α) : Prop :=
  ∃ later inserted earlier, history = later ++ .insert token inserted :: earlier
    ∧ .remove token ∉ later
    ∧ connection
      = (later.filterMap (Operation.change? token)).foldr (fun change now => change now) inserted

theorem not_held_nil : ¬ Held token [] connection := fun ⟨_, _, _, h, _⟩ => by simp at h

theorem Held.mem (h : Held token history connection) :
    ∃ inserted, .insert token inserted ∈ history := by
  obtain ⟨later, inserted, earlier, rfl, -⟩ := h
  exact ⟨inserted, List.mem_append_right later List.mem_cons_self⟩

/-- The newest operation inserted the connection, or left it there, perhaps changed. -/
theorem held_cons_iff : Held token (operation :: earlier) connection ↔
    operation = .insert token connection
      ∨ operation ≠ .remove token ∧ ∃ before, Held token earlier before
        ∧ connection = ((operation.change? token).getD id) before := by
  constructor
  · rintro ⟨later, inserted, rest, heq, hremove, rfl⟩
    cases later with
    | nil =>
      obtain ⟨rfl, rfl⟩ := List.cons.inj heq
      exact .inl rfl
    | cons first later =>
      obtain ⟨rfl, rfl⟩ := List.cons.inj heq
      obtain ⟨hfirst, hrest⟩ := not_or.1 (mt List.mem_cons.2 hremove)
      refine .inr ⟨Ne.symm hfirst, _, ⟨later, inserted, rest, rfl, hrest, rfl⟩, ?_⟩
      cases hchange : operation.change? token <;> simp [hchange]
  · rintro (rfl | ⟨hne, _, ⟨later, inserted, rest, rfl, hremove, rfl⟩, rfl⟩)
    · exact ⟨[], connection, earlier, rfl, List.not_mem_nil, rfl⟩
    · refine ⟨operation :: later, inserted, rest, rfl, ?_, ?_⟩
      · exact mt List.mem_cons.1 (not_or.2 ⟨Ne.symm hne, hremove⟩)
      · cases hchange : operation.change? token <;> simp [hchange]

/-- **A token stands for what the history has left under it.** -/
theorem get?_after (h : Disciplined history) :
    (after history).get? token = some connection ↔ Held token history connection := by
  induction history generalizing connection with
  | nil => exact ⟨nofun, fun hheld => absurd hheld not_held_nil⟩
  | cons operation earlier ih =>
    have ih {before : α} : (after earlier).get? token = some before ↔ Held token earlier before :=
      ih (disciplined_cons_iff.1 h).2
    rw [after, get?_perform, held_cons_iff]
    cases operation with
    | insert t inserted =>
      by_cases ht : token = t
      · subst ht
        -- It was not inserted before, so there is nothing left from before.
        have hnone (before : α) : ¬ Held token earlier before := fun hheld =>
          have ⟨other, hm⟩ := hheld.mem
          (h [] token inserted earlier rfl).2 other hm
        simp [Operation.effect, hnone]
      · simp [Operation.effect, Operation.change?, ht, Ne.symm ht, ih]
    | modify t change =>
      by_cases ht : token = t
      · simp [Operation.effect, Operation.change?, ← ht, Option.map_eq_some_iff, ih,
          eq_comm (a := connection)]
      · simp [Operation.effect, Operation.change?, ht, ih]
    | remove t =>
      by_cases ht : token = t
      · simp [Operation.effect, ht]
      · simp [Operation.effect, Operation.change?, ht, Ne.symm ht, ih]
    | reserve | get | contains | size | tokens =>
      simp [Operation.effect, Operation.change?, ih]

/-- What stays away from a token leaves it empty. -/
theorem get?_append_eq_none (h : (after history).get? token = none)
    (hlater : ∀ connection, .insert token connection ∉ later) :
    (after (later ++ history)).get? token = none := by
  induction later with
  | nil => exact h
  | cons operation later ih =>
    have ih := ih fun connection hm => hlater connection (List.mem_cons_of_mem _ hm)
    rw [List.cons_append, after, get?_perform, ih]
    cases operation with
    | insert t connection =>
      have ht : token ≠ t := fun ht => hlater connection (ht ▸ List.mem_cons_self)
      exact if_neg ht
    | modify | remove => exact ite_self none
    | reserve | get | contains | size | tokens => rfl

/-- A token is inserted under once. -/
theorem Disciplined.notMem_of_held (h : Disciplined (later ++ history))
    (hheld : Held token history connection) (other : α) : .insert token other ∉ later := by
  intro hm
  obtain ⟨inserted, hinserted⟩ := hheld.mem
  obtain ⟨newer, between, rfl⟩ := List.append_of_mem hm
  refine (h newer token other (between ++ history) (by simp)).2 inserted ?_
  exact List.mem_append_right between hinserted

/-- What was removed is gone for good. -/
theorem Disciplined.get?_of_removed (h : Disciplined (later ++ .remove token :: history))
    (hheld : Held token history connection) :
    (after (later ++ .remove token :: history)).get? token = none := by
  refine get?_append_eq_none ?_ fun other hm => ?_
  · rw [after, get?_perform]
    exact if_pos rfl
  · have h : Disciplined ((later ++ [.remove token]) ++ history) := by
      rwa [List.append_assoc]
    exact h.notMem_of_held hheld other (List.mem_append_left _ hm)

/-! ## Live tokens -/

theorem nodup_tokens_perform (h : table.tokens.Nodup) (operation : Operation α) :
    (table.perform operation).2.tokens.Nodup := by
  cases operation with
  | insert t connection =>
    rw [perform, tokens_insert]
    refine (h.filter _).append (List.nodup_singleton t) (List.disjoint_singleton.2 fun hm => ?_)
    exact bne_iff_ne.1 (List.mem_filter.1 hm).2 rfl
  | modify t change => rwa [perform, tokens_modify]
  | remove t =>
    rw [perform, tokens_remove]
    exact h.filter _
  | reserve | get | contains | size | tokens => exact h

theorem nodup_tokens_after (history : List (Operation α)) : (after history).tokens.Nodup := by
  induction history with
  | nil => exact List.nodup_nil
  | cons operation earlier ih => exact nodup_tokens_perform ih operation

theorem mem_tokens_iff :
    token ∈ table.tokens ↔ ∃ connection, table.get? token = some connection := by
  rw [← Option.isSome_iff_exists, Option.isSome_iff_ne_none, ne_eq, get?_eq_none_iff,
    Decidable.not_not]

theorem size_eq_length_tokens (table : Table α) : table.size = table.tokens.length :=
  (List.length_map Prod.fst).symm

/-- Only tokens that were handed out are live. -/
theorem Disciplined.mem_handedOut (h : Disciplined history)
    (hheld : Held token history connection) : token ∈ handedOut history := by
  obtain ⟨later, inserted, earlier, rfl, -⟩ := hheld
  have hbefore := (h later token inserted earlier rfl).1
  rw [handedOut_eq, List.mem_range'_1] at hbefore ⊢
  rw [List.countP_append, List.countP_cons]
  omega

/-! ## Never confused -/

/-- **What operations answer after a history**, and ever after.

The token handed out next is one more than there were; so all of them are different, none is the
listener's, and the counter is a machine word as long as there were fewer than 2^64 - 1.  Inserting
replaces nothing, and what is got is what the history has left; that goes for getting it for a
change and for removing it, and the live tokens are those with something left.  What was removed is
gone for good, and a token that stands for nothing does so until it is inserted under. -/
structure Unconfused (history : List (Operation α)) : Prop where
  reserve : answer history .reserve = .token (history.countP Operation.isReserve + 1)
  handedOut : handedOut history = List.range' 1 (history.countP Operation.isReserve)
  distinct : (Table.handedOut history).Nodup
  others : listener ∉ Table.handedOut history
  words : history.countP Operation.isReserve < 2 ^ 64 - 1 → (after history).nextToken < 2 ^ 64
  insert : ∀ token connection, Disciplined (.insert token connection :: history) →
    answer history (.insert token connection) = .connection none
  get : ∀ token connection,
    answer history (.get token) = .connection (some connection) ↔ Held token history connection
  modify : ∀ token change, answer history (.modify token change) = answer history (.get token)
  remove : ∀ token, answer history (.remove token) = answer history (.get token)
  contains : ∀ token,
    answer history (.contains token) = .live true ↔ ∃ connection, Held token history connection
  tokens : ∃ tokens, answer history .tokens = .tokens tokens
    ∧ answer history .size = .size tokens.length ∧ tokens.Nodup
    ∧ ∀ token, token ∈ tokens ↔ ∃ connection, Held token history connection
  own : ∀ token connection, Held token history connection → token ∈ Table.handedOut history
  gone : ∀ token connection later, Held token history connection →
    Disciplined (later ++ .remove token :: history) →
      answer (later ++ .remove token :: history) (.get token) = .connection none
  absent : ∀ token later, answer history (.get token) = .connection none →
    (∀ connection, .insert token connection ∉ later) →
      answer (later ++ history) (.get token) = .connection none

theorem get_eq_iff {found : Option α} :
    answer history (.get token) = .connection found ↔ (after history).get? token = found := by
  rw [answer, perform, Answer.connection.injEq]

/-- **A table never confuses two connections**, however it is used in a disciplined way. -/
theorem never_confuses (h : Disciplined history) : Unconfused history where
  reserve := congrArg Answer.token (nextToken_after history)
  handedOut := handedOut_eq history
  distinct := by
    rw [handedOut_eq]
    exact List.nodup_range'
  others hm := by
    rw [handedOut_eq, List.mem_range'_1] at hm
    exact absurd hm.1 (by decide)
  words hfew := by
    rw [nextToken_after]
    exact Nat.add_lt_of_lt_sub hfew
  insert token connection hinsert := by
    have hnone : (after history).get? token = none := Option.eq_none_iff_forall_ne_some.2
      fun before hbefore => by
        obtain ⟨other, hm⟩ := ((get?_after h).1 hbefore).mem
        exact (hinsert [] token connection history rfl).2 other hm
    exact congrArg Answer.connection hnone
  get token connection := get_eq_iff.trans (get?_after h)
  modify _ _ := rfl
  remove _ := rfl
  contains token := by
    rw [answer, perform, Answer.live.injEq, contains, Option.isSome_iff_exists]
    exact exists_congr fun connection => get?_after h
  tokens := by
    refine ⟨_, rfl, congrArg Answer.size (size_eq_length_tokens _), nodup_tokens_after history, ?_⟩
    intro token
    rw [mem_tokens_iff]
    exact exists_congr fun connection => get?_after h
  own _ _ hheld := h.mem_handedOut hheld
  gone _ _ _ hheld hlater := get_eq_iff.2 (hlater.get?_of_removed hheld)
  absent token later habsent hlater :=
    get_eq_iff.2 (get?_append_eq_none (get_eq_iff.1 habsent) hlater)

/-- Two tokens are reserved, the second is inserted under first, both connections are changed, and
the second is removed; newest first. -/
def crossed : List (Operation Nat) :=
  [.remove 2, .modify 2 (· * 2), .modify 1 (· + 1), .insert 1 10, .insert 2 20, .reserve, .reserve]

theorem never_confuses_crossed : Disciplined crossed ∧ Unconfused crossed
    ∧ answer crossed (.get 1) = .connection (some 11)
    ∧ answer crossed (.get 2) = .connection none := by
  have h : Disciplined crossed := by
    simp [crossed, disciplined_cons_iff, disciplined_nil, handedOut_eq, List.countP_cons,
      Operation.isReserve]
  exact ⟨h, never_confuses h, rfl, rfl⟩

end TrackServer.Table
