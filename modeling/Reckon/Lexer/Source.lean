import Reckon.Lexer.Basic

/-!
# Where tokens come from

A source of tokens hands out one token after another, and knows how many of them are still to come
(`TokenSource`). Who reads from a source and goes on after every token but the end comes to an end.

A lexer is such a source. `Lexer.tokensLeft` counts the tokens that it has not handed out, the end
not included. A token other than the end makes them one fewer (`Lexer.tokensLeft_of_next`), and
after the end or a failure there are none.
-/

namespace Reckon

/-- What hands out tokens one after another. -/
class TokenSource (σ : Type) where
  /-- The next token, or why there is none, with the source after it. -/
  next : σ → Except LexError Token × σ
  /-- How many tokens other than the end are to come. -/
  tokensLeft : σ → Nat
  tokensLeft_next_le (s : σ) : tokensLeft (next s).2 ≤ tokensLeft s
  tokensLeft_next_lt (s : σ) (t : Token) (h : (next s).1 = .ok t) (hk : t.kind ≠ .eof) :
    tokensLeft (next s).2 < tokensLeft s

namespace Lexer

variable {l after : Lexer} {t : Token} {e : LexError}

/-! ### After a failure -/

/-- Where a token cannot be read, nothing has happened but the failure. -/
theorem readToken_eq_error (h : l.readToken = (.error e, after)) :
    ∃ c, after = (l.fail c e).2 := by
  rw [readToken] at h
  split at h
  · cases h
  · split at h
    · rw [readEquals] at h
      split at h
      · cases h
        exact ⟨_, rfl⟩
      · split at h <;> cases h
    · split at h
      · rw [readNumber] at h
        split at h
        · cases h
          exact ⟨_, rfl⟩
        · split at h <;> cases h
      · split at h
        · cases h
        · split at h <;> cases h
          exact ⟨_, rfl⟩

/-- A lexer that has failed keeps its failure. -/
theorem failure_of_next_error (h : l.next = (.error e, after)) : after.failure = some e := by
  rw [next] at h
  split at h
  · rename_i hfailure
    cases h
    exact hfailure
  · obtain ⟨c, rfl⟩ := readToken_eq_error h
    rfl

/-- A lexer that has failed fails again and stays as it is. -/
theorem next_of_next_error (h : l.next = (.error e, after)) : after.next = (.error e, after) := by
  rw [next, failure_of_next_error h]

/-! ### The tokens to come -/

theorem drain_of_next (h : l.next = (.ok t, after)) :
    l.drain = if t.kind = .eof then ([t], none) else (t :: after.drain.1, after.drain.2) := by
  rw [drain]
  split <;> rename_i hn <;> rw [h] at hn <;> cases hn
  rfl

theorem drain_of_next_error (h : l.next = (.error e, after)) : l.drain = ([], some e) := by
  rw [drain]
  split <;> rename_i hn <;> rw [h] at hn <;> cases hn
  rfl

/-- How many tokens other than the end are to come. -/
def tokensLeft (l : Lexer) : Nat := l.drain.1.countP fun t => t.kind ≠ .eof

theorem tokensLeft_of_next (h : l.next = (.ok t, after)) (hk : t.kind ≠ .eof) :
    l.tokensLeft = after.tokensLeft + 1 := by
  rw [tokensLeft, drain_of_next h, if_neg hk, List.countP_cons_of_pos (by simpa using hk)]
  rfl

/-- No tokens are to come where no bytes are. -/
theorem tokensLeft_of_remaining (h : l.remaining = 0) : l.tokensLeft = 0 := by
  rw [tokensLeft]
  rcases hn : l.next with ⟨e | t, after⟩
  · rw [drain_of_next_error hn]
    rfl
  · by_cases hk : t.kind = .eof
    · rw [drain_of_next hn, if_pos hk, List.countP_singleton]
      simp [hk]
    · have hless := remaining_lt_of_next hn hk
      omega

/-- The tokens of a single character are not the end. -/
theorem ne_eof_of_single? {c : Char} {kind : TokenKind} (h : single? c = some kind) :
    kind ≠ .eof := by
  unfold single? at h
  split at h <;> cases h <;> decide

/-- The end is handed out where no bytes are to come. -/
theorem remaining_of_readToken_eof (h : l.readToken = (.ok t, after)) (hk : t.kind = .eof) :
    after.remaining = 0 := by
  rw [readToken] at h
  split at h
  · rename_i c hpeek
    cases h
    have hnone : l.cursor.next.1 = none := congrArg Prod.fst hpeek
    have hnext : l.cursor.next = (none, l.cursor.next.2) := Prod.ext hnone rfl
    have hahead := l.cursor.ahead_peek
    rw [hpeek, (Cursor.next_eq_none hnext).1] at hahead
    exact congrArg List.length hahead
  · -- every other token has a kind of its own
    split at h
    · rw [readEquals] at h
      split at h
      · cases h
      · split at h <;> cases h <;> contradiction
    · split at h
      · rw [readNumber] at h
        split at h
        · cases h
        · split at h <;> cases h <;> contradiction
      · split at h
        · cases h
          contradiction
        · split at h
          · rename_i kind hs
            cases h
            exact absurd hk (ne_eof_of_single? hs)
          · cases h

/-- Asking for a token makes the tokens to come no more. -/
theorem tokensLeft_next_le (l : Lexer) : l.next.2.tokensLeft ≤ l.tokensLeft := by
  rcases hn : l.next with ⟨e | t, after⟩
  · have hnone : after.tokensLeft = 0 := by
      rw [tokensLeft, drain_of_next_error (next_of_next_error hn)]
      rfl
    exact hnone ▸ Nat.zero_le _
  · by_cases hk : t.kind = .eof
    · have hend : after.remaining = 0 := by
        rw [next] at hn
        split at hn
        · cases hn
        · exact remaining_of_readToken_eof hn hk
      exact tokensLeft_of_remaining hend ▸ Nat.zero_le _
    · exact tokensLeft_of_next hn hk ▸ Nat.le_succ _

instance : TokenSource Lexer where
  next := next
  tokensLeft := tokensLeft
  tokensLeft_next_le := tokensLeft_next_le
  tokensLeft_next_lt l t h hk := by
    rw [tokensLeft_of_next (Prod.ext h rfl) hk]
    exact Nat.lt_succ_self _

end Lexer

end Reckon
