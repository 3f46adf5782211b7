import NodeClient.Json.Printer
import NodeClient.Json.Token

/-!
# Tokens of printed values — the lexer reads back what the printer writes

`Json.Reads text tokens` says that the lexer, between two tokens, reads exactly these tokens from
the text and is between two tokens again.  Such readings can be put one after the other.

* `reads_quote`: a quoted string is read as that string, whatever its characters are.
-/

namespace NodeClient
namespace Json

/-- The lexer reads the tokens from the text, wherever it starts a token. -/
def Reads (text : String) (tokens : List Token) : Prop :=
  ∀ seen, text.toList.foldlM Lexer.step ⟨seen, .between⟩ = some ⟨tokens.reverse ++ seen, .between⟩

theorem Reads.append {text text' : String} {tokens tokens' : List Token} (h : Reads text tokens)
    (h' : Reads text' tokens') : Reads (text ++ text') (tokens ++ tokens') := by
  intro seen
  rw [String.toList_append, List.foldlM_append, h seen, List.reverse_append, List.append_assoc]
  exact h' _

/-- A text has at most one reading. -/
theorem Reads.unique {text : String} {tokens tokens' : List Token} (h : Reads text tokens)
    (h' : Reads text tokens') : tokens = tokens' := by
  have hlexer := Option.some.inj ((h []).symm.trans (h' []))
  injection hlexer with htokens
  rw [List.append_nil, List.append_nil] at htokens
  exact List.reverse_inj.mp htokens

section Marks

theorem reads_openObject : Reads "\x7b" [.openObject] := fun _ => rfl

theorem reads_closeObject : Reads "\x7d" [.closeObject] := fun _ => rfl

theorem reads_colon : Reads ":" [.colon] := fun _ => rfl

theorem reads_comma : Reads "," [.comma] := fun _ => rfl

end Marks

/-! ### Strings -/

theorem hexValue?_hexDigit {n : Nat} (h : n < 16) : Lexer.hexValue? (hexDigit n) = some n := by
  have hall : ∀ m : Fin 16, Lexer.hexValue? (hexDigit m) = some m.val := by decide
  exact hall ⟨n, h⟩

/-- A character inside a string is read back, escaped or not. -/
theorem foldlM_escape (c : Char) (tokens : List Token) (seen : List Char) :
    (escape c).foldlM Lexer.step ⟨tokens, .text seen⟩ = some ⟨tokens, .text (c :: seen)⟩ := by
  unfold escape
  split
  · next h => subst h; rfl
  split
  · next h => subst h; rfl
  split
  · next h => subst h; rfl
  split
  · next h => subst h; rfl
  split
  · next h => subst h; rfl
  split
  · next h => subst h; rfl
  split
  · next h => subst h; rfl
  next hquote hback _ _ _ _ _ =>
  split
  · next hlow =>
    have hhigh := hexValue?_hexDigit (show c.toNat / 16 < 16 by omega)
    have hrest := hexValue?_hexDigit (show c.toNat % 16 < 16 by omega)
    have hzero : Lexer.hexValue? '0' = some 0 := rfl
    have hvalue : c.toNat / 16 * 16 + c.toNat % 16 = c.toNat := by omega
    have hunit : Lexer.unit? seen c.toNat none = some (.text (c :: seen)) := by
      have : ¬0xD800 ≤ c.toNat := by omega
      have : ¬0xDC00 ≤ c.toNat := by omega
      simp [Lexer.unit?, *]
    simp [Lexer.step, hzero, hhigh, hrest, hvalue, hunit]
  · next hlow =>
    simp [Lexer.step, hquote, hback, hlow]

theorem foldlM_flatMap_escape (cs : List Char) (tokens : List Token) (seen : List Char) :
    (cs.flatMap escape).foldlM Lexer.step ⟨tokens, .text seen⟩ =
      some ⟨tokens, .text (cs.reverse ++ seen)⟩ := by
  induction cs generalizing seen with
  | nil => rfl
  | cons c rest ih =>
    rw [List.flatMap_cons, List.foldlM_append, foldlM_escape, List.reverse_cons,
      List.append_assoc]
    exact ih (c :: seen)

/-- **A quoted string is read back.** -/
theorem reads_quote (s : String) : Reads (quote s) [.scalar (.string s)] := by
  intro seen
  have hopen : Lexer.step ⟨seen, .between⟩ '"' = some ⟨seen, .text []⟩ := rfl
  rw [quote, String.toList_ofList, List.cons_append, List.foldlM_cons, hopen]
  simp [List.foldlM_append, foldlM_flatMap_escape, Lexer.step]

end Json
end NodeClient
