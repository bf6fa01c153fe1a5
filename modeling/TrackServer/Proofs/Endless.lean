import Mathlib.Data.List.Count
import TrackServer.Proofs.Calls

/-!
# Proofs/Endless — calls over a socket that goes on for ever

A script ends, but what a socket does need not: then it is a sequence of results, one for each
number.  A call ends over such a sequence if some `beginning` of it is enough: what comes behind is
left to later calls and changes nothing (`EndsInput`, `EndsOutput`).

* `exists_le_countP_beginning`: if a test is passed again and again, some beginning passes it as
  often as one likes.
-/

namespace TrackServer

section Beginning

variable {α : Type} {test : α → Bool} {results : ℕ → α}

/-- The first members of a sequence. -/
def beginning (results : ℕ → α) (count : ℕ) : List α :=
  (List.range count).map results

theorem beginning_succ (count : ℕ) :
    beginning results (count + 1) = beginning results count ++ [results count] := by
  simp [beginning, List.range_succ]

theorem beginning_sublist {count more : ℕ} (h : count ≤ more) :
    (beginning results count).Sublist (beginning results more) :=
  (List.range_sublist.2 h).map results

/-- **What passes a test again and again** passes it as often as one likes in some beginning. -/
theorem exists_le_countP_beginning (h : ∀ n, ∃ m, n ≤ m ∧ test (results m) = true) (least : ℕ) :
    ∃ count, least ≤ (beginning results count).countP test := by
  induction least with
  | zero => exact ⟨0, Nat.zero_le _⟩
  | succ least ih =>
    obtain ⟨count, hcount⟩ := ih
    obtain ⟨m, hm, htest⟩ := h count
    refine ⟨m + 1, ?_⟩
    rw [beginning_succ, List.countP_append, List.countP_singleton, if_pos htest]
    exact Nat.succ_le_succ (Nat.le_trans hcount (beginning_sublist hm).countP_le)

end Beginning

namespace Connection

variable {connection : Connection}

/-- **A call of input ends over a peer that never stops**: some beginning of what the peer does is
enough for it, and what comes behind is not touched. -/
def EndsInput (service : Service) (connection : Connection) (peer : ℕ → ReadResult) : Prop :=
  ∃ (count : ℕ) (next : Next) (after : Connection), ∀ more,
    (connection.extendScripts (beginning peer count ++ more) []).handleInput service
      = (next, after.extendScripts more [])

/-- **A call of output ends over a socket that never stops**, in the same sense. -/
def EndsOutput (connection : Connection) (steps : ℕ → WriteStep) : Prop :=
  ∃ (count : ℕ) (next : Next) (after : Connection), ∀ more,
    (connection.extendScripts [] (beginning steps count ++ more)).handleOutput
      = (next, after.extendScripts [] more)

theorem extendScripts_append_reads (reads more : List ReadResult) :
    connection.extendScripts (reads ++ more) []
      = (connection.extendScripts reads []).extendScripts more [] := by
  simp [extendScripts, Inlet.extend, Outlet.extend]

theorem extendScripts_append_writes (writes more : List WriteStep) :
    connection.extendScripts [] (writes ++ more)
      = (connection.extendScripts [] writes).extendScripts [] more := by
  simp [extendScripts, Inlet.extend, Outlet.extend]

end Connection

end TrackServer
