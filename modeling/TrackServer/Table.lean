/-!
# Table — live connections by token

Readiness is reported by token.  Token 0 is the listening socket's; clients get the tokens from 1
upward, each once (`reserve`), and keep theirs until they are removed.  The table is a list of
tokens with their connections, oldest first.

* `get?_insert`, `get?_remove`, `get?_modify`: what each change does to a look-up.
-/

namespace TrackServer

/-- The name under which readiness is reported. -/
abbrev Token := Nat

/-- The token of the listening socket. -/
def listener : Token := 0

/-- Live connections, oldest first, and the token that is handed out next. -/
structure Table (α : Type) where
  live : List (Token × α)
  nextToken : Token
  deriving DecidableEq

namespace Table

variable {α : Type}

/-- A table without connections.  The first client gets token 1. -/
def empty : Table α :=
  ⟨[], listener + 1⟩

variable (table : Table α)

/-- Hand out the next token. -/
def reserve : Token × Table α :=
  (table.nextToken, { table with nextToken := table.nextToken + 1 })

/-- The connection under a token. -/
def get? (token : Token) : Option α :=
  table.live.lookup token

/-- Whether a token is live. -/
def contains (token : Token) : Bool :=
  (table.get? token).isSome

/-- The number of live connections. -/
def size : Nat :=
  table.live.length

/-- Whether no connection is live. -/
def isEmpty : Bool :=
  table.live.isEmpty

/-- The live tokens. -/
def tokens : List Token :=
  table.live.map Prod.fst

/-- Store a connection under a reserved token. -/
def insert (token : Token) (connection : α) : Table α :=
  { table with live := table.live.filter (·.1 != token) ++ [(token, connection)] }

/-- Forget a token. -/
def remove (token : Token) : Table α :=
  { table with live := table.live.filter (·.1 != token) }

/-- Change the connection under a token. -/
def modify (token : Token) (change : α → α) : Table α :=
  { table with live := table.live.map fun (t, c) => if t = token then (t, change c) else (t, c) }

variable {table}

theorem lookup_filter_ne (live : List (Token × α)) (token t : Token) :
    (live.filter (·.1 != token)).lookup t = if t = token then none else live.lookup t := by
  induction live with
  | nil => simp
  | cons entry rest ih =>
    obtain ⟨u, c⟩ := entry
    by_cases hu : u = token
    · subst hu
      rw [List.filter_cons_of_neg (by simp), ih]
      by_cases ht : t = u
      · simp [ht]
      · simp [ht, List.lookup_cons, beq_eq_false_iff_ne.2 ht]
    · rw [List.filter_cons_of_pos (by simpa using hu), List.lookup_cons, List.lookup_cons, ih]
      by_cases ht : t = token
      · have : t ≠ u := fun h => hu (h ▸ ht)
        simp [ht, beq_eq_false_iff_ne.2 (ht ▸ this)]
      · simp [ht]

/-- A removed token has no connection, the others keep theirs. -/
theorem get?_remove (token t : Token) :
    (table.remove token).get? t = if t = token then none else table.get? t :=
  lookup_filter_ne table.live token t

/-- An inserted token has its connection, the others keep theirs. -/
theorem get?_insert (token t : Token) (connection : α) :
    (table.insert token connection).get? t =
      if t = token then some connection else table.get? t := by
  simp only [get?, insert, List.lookup_append, lookup_filter_ne, List.lookup_cons, List.lookup_nil]
  by_cases ht : t = token
  · simp [ht]
  · simp [ht, beq_eq_false_iff_ne.2 ht]

/-- A changed token has the changed connection, the others keep theirs. -/
theorem get?_modify (token t : Token) (change : α → α) :
    (table.modify token change).get? t =
      if t = token then (table.get? t).map change else table.get? t := by
  simp only [get?, modify]
  induction table.live with
  | nil => simp
  | cons entry rest ih =>
    obtain ⟨u, c⟩ := entry
    rw [List.map_cons, List.lookup_cons]
    by_cases hu : u = token
    · subst hu
      by_cases ht : t = u
      · simp [ht]
      · simp only [if_pos, List.lookup_cons, beq_eq_false_iff_ne.2 ht, ih, if_neg ht]
    · by_cases ht : t = u
      · subst ht
        simp [hu]
      · simp only [if_neg hu, List.lookup_cons, beq_eq_false_iff_ne.2 ht, ih]

end Table

end TrackServer
