import TrackServer.Table

/-!
# Proofs/Tokens — a table in the order of its tokens

Tokens are handed out upward, each once, so the live ones stand in increasing order between the
listener's and the next (`Table.Ordered`).  Such a table is known by its look-ups alone
(`Ordered.ext_get?`), whatever the order in which it was changed.
-/

namespace TrackServer.Table

variable {α : Type} {table other : Table α}

/-! ## Live tokens -/

theorem lookup_eq_none_iff_notMem {live : List (Token × α)} {token : Token} :
    live.lookup token = none ↔ token ∉ live.map Prod.fst := by
  rw [List.lookup_eq_none_iff, List.mem_map]
  constructor
  · rintro h ⟨entry, hm, ht⟩
    simpa [ht] using h entry hm
  · intro h entry hm
    exact bne_iff_ne.2 fun ht => h ⟨entry, hm, ht.symm⟩

theorem get?_eq_none_iff {token : Token} : table.get? token = none ↔ token ∉ table.tokens :=
  lookup_eq_none_iff_notMem

theorem tokens_modify (token : Token) (change : α → α) :
    (table.modify token change).tokens = table.tokens := by
  rw [tokens, modify, List.map_map, tokens]
  refine List.map_congr_left fun entry _ => ?_
  dsimp only [Function.comp]
  split <;> rfl

theorem tokens_remove (token : Token) :
    (table.remove token).tokens = table.tokens.filter (· != token) := by
  rw [tokens, remove, tokens, List.filter_map]
  rfl

theorem tokens_insert (token : Token) (connection : α) :
    (table.insert token connection).tokens = table.tokens.filter (· != token) ++ [token] := by
  rw [tokens, insert, List.map_append, tokens, List.filter_map]
  rfl

/-! ## Order -/

/-- **A table in order**: the live tokens increase, and lie between the listener's and the next. -/
structure Ordered (table : Table α) : Prop where
  increasing : table.tokens.Pairwise (· < ·)
  above : ∀ token ∈ table.tokens, listener < token
  below : ∀ token ∈ table.tokens, token < table.nextToken
  next : listener < table.nextToken

theorem ordered_empty : (empty : Table α).Ordered where
  increasing := .nil
  above _ hm := by cases hm
  below _ hm := by cases hm
  next := Nat.lt_succ_self listener

namespace Ordered

variable (h : table.Ordered)
include h

/-- The listener is no connection… -/
theorem get?_listener : table.get? listener = none :=
  get?_eq_none_iff.2 fun hm => Nat.lt_irrefl _ (h.above _ hm)

/-- …nor is a token that was not handed out yet. -/
theorem get?_of_le {token : Token} (ht : table.nextToken ≤ token) : table.get? token = none :=
  get?_eq_none_iff.2 fun hm => Nat.not_lt_of_le ht (h.below _ hm)

theorem modify (token : Token) (change : α → α) : (table.modify token change).Ordered where
  increasing := (tokens_modify token change).symm ▸ h.increasing
  above := (tokens_modify token change).symm ▸ h.above
  below := (tokens_modify token change).symm ▸ h.below
  next := h.next

theorem remove (token : Token) : (table.remove token).Ordered where
  increasing := (tokens_remove token).symm ▸ h.increasing.filter _
  above t hm := by
    rw [tokens_remove] at hm
    exact h.above t (List.mem_filter.1 hm).1
  below t hm := by
    rw [tokens_remove] at hm
    exact h.below t (List.mem_filter.1 hm).1
  next := h.next

/-- Handing out a token keeps the order… -/
theorem reserve : table.reserve.2.Ordered where
  increasing := h.increasing
  above := h.above
  below t hm := Nat.lt_succ_of_lt (h.below t hm)
  next := Nat.lt_succ_of_lt h.next

/-- …and so does storing a connection under it. -/
theorem insert_reserve (connection : α) :
    (table.reserve.2.insert table.reserve.1 connection).Ordered where
  increasing := by
    rw [tokens_insert, List.pairwise_append]
    refine ⟨h.increasing.filter _, List.pairwise_singleton _ _, fun t hm u hu => ?_⟩
    rw [List.mem_singleton.1 hu]
    exact h.below t (List.mem_filter.1 hm).1
  above t hm := by
    rw [tokens_insert, List.mem_append, List.mem_singleton] at hm
    rcases hm with hm | rfl
    · exact h.above t (List.mem_filter.1 hm).1
    · exact h.next
  below t hm := by
    rw [tokens_insert, List.mem_append, List.mem_singleton] at hm
    rcases hm with hm | rfl
    · exact Nat.lt_succ_of_lt (h.below t (List.mem_filter.1 hm).1)
    · exact Nat.lt_succ_self table.nextToken
  next := Nat.lt_succ_of_lt h.next

end Ordered

/-! ## A table by its look-ups -/

theorem lookup_eq_none_of_lt {live : List (Token × α)} {token : Token}
    (h : ∀ entry ∈ live, token < entry.1) : live.lookup token = none :=
  List.lookup_eq_none_iff.2 fun entry hm => bne_iff_ne.2 (Nat.ne_of_lt (h entry hm))

/-- Increasing entries that answer every look-up alike are the same. -/
theorem eq_of_lookup_eq {live more : List (Token × α)} (h : live.Pairwise fun a b => a.1 < b.1)
    (h' : more.Pairwise fun a b => a.1 < b.1)
    (hl : ∀ token, live.lookup token = more.lookup token) : live = more := by
  induction live generalizing more with
  | nil =>
    cases more with
    | nil => rfl
    | cons entry' rest' =>
      obtain ⟨t', c'⟩ := entry'
      simpa using hl t'
  | cons entry rest ih =>
    obtain ⟨t, c⟩ := entry
    cases more with
    | nil => simpa using hl t
    | cons entry' rest' =>
      obtain ⟨t', c'⟩ := entry'
      rw [List.pairwise_cons] at h h'
      have hrest : rest.lookup t = none := lookup_eq_none_of_lt h.1
      have hrest' : rest'.lookup t' = none := lookup_eq_none_of_lt h'.1
      -- The smaller of the two first tokens would be missing on the other side.
      have htoken : t = t' := by
        rcases Nat.lt_trichotomy t t' with hlt | heq | hgt
        · have hnone : ((t', c') :: rest').lookup t = none :=
            lookup_eq_none_of_lt (List.forall_mem_cons.2
              ⟨hlt, fun e he => Nat.lt_trans hlt (h'.1 e he)⟩)
          simpa [hnone] using hl t
        · exact heq
        · have hnone : ((t, c) :: rest).lookup t' = none :=
            lookup_eq_none_of_lt (List.forall_mem_cons.2
              ⟨hgt, fun e he => Nat.lt_trans hgt (h.1 e he)⟩)
          simpa [hnone] using hl t'
      subst htoken
      have hconnection : c = c' := by simpa using hl t
      have htail : rest = rest' := by
        refine ih h.2 h'.2 fun u => ?_
        by_cases hu : u = t
        · rw [hu, hrest, hrest']
        · simpa [List.lookup_cons, beq_eq_false_iff_ne.2 hu] using hl u
      rw [hconnection, htail]

/-- **A table in order is known by its look-ups** and its next token. -/
theorem Ordered.ext_get? (h : table.Ordered) (h' : other.Ordered)
    (hn : table.nextToken = other.nextToken) (hg : ∀ token, table.get? token = other.get? token) :
    table = other := by
  have hlive := eq_of_lookup_eq (List.pairwise_map.1 h.increasing)
    (List.pairwise_map.1 h'.increasing) hg
  obtain ⟨live, next⟩ := table
  obtain ⟨live', next'⟩ := other
  rw [Table.mk.injEq]
  exact ⟨hlive, hn⟩

end TrackServer.Table
