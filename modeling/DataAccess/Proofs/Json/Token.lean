import DataAccess.Json.Printer
import DataAccess.Json.Token
import Mathlib.Logic.Function.Basic
import Mathlib.Tactic.SplitIfs

namespace DataAccess.Json

open Token

variable {chars : List Char} {tokens : List Token}

theorem hexValue?_hexDigit : ∀ n < 16, hexValue? (hexDigit n) = some n := by
  decide

theorem ofNat_of_toNat {c : Char} {code : Nat} (same : c.toNat = code) : Char.ofNat code = c := by
  rw [← same, Char.ofNat_toNat]

/-- A character between 00 and 1F is read back from its unit. -/
theorem foldlM_unit {c : Char} (control : c.toNat < 0x20) :
    ['\\', 'u', '0', '0', hexDigit (c.toNat / 16), hexDigit (c.toNat % 16)].foldlM step
      ⟨.text chars, tokens⟩ = some ⟨.text (c :: chars), tokens⟩ := by
  have high := hexValue?_hexDigit (c.toNat / 16) (by omega)
  have low := hexValue?_hexDigit (c.toNat % 16) (by omega)
  have code : 16 * (c.toNat / 16) + c.toNat % 16 = c.toNat := Nat.div_add_mod _ _
  have zero : hexValue? '0' = some 0 := by decide
  have whole : endUnit chars none c.toNat = some (.text (c :: chars)) := by
    have notHigh : isHighSurrogate c.toNat = false := by simp [isHighSurrogate]; omega
    have notLow : isLowSurrogate c.toNat = false := by simp [isLowSurrogate]; omega
    simp [endUnit, notHigh, notLow]
  simp [List.foldlM, step, zero, high, low, code, whole]

theorem foldlM_letter {letter c : Char} (meant : unescape? letter = some c)
    (notUnit : letter ≠ 'u') :
    ['\\', letter].foldlM step ⟨.text chars, tokens⟩ = some ⟨.text (c :: chars), tokens⟩ := by
  simp [List.foldlM, step, meant, notUnit]

theorem foldlM_escape (c : Char) :
    (escape c).foldlM step ⟨.text chars, tokens⟩ = some ⟨.text (c :: chars), tokens⟩ := by
  unfold escape
  split_ifs with quote backslash backspace tab newline feed carriage control
  · subst quote
    exact foldlM_letter (by decide) (by decide)
  · subst backslash
    exact foldlM_letter (by decide) (by decide)
  · exact foldlM_letter (ofNat_of_toNat backspace ▸ rfl) (by decide)
  · exact foldlM_letter (ofNat_of_toNat tab ▸ rfl) (by decide)
  · exact foldlM_letter (ofNat_of_toNat newline ▸ rfl) (by decide)
  · exact foldlM_letter (ofNat_of_toNat feed ▸ rfl) (by decide)
  · exact foldlM_letter (ofNat_of_toNat carriage ▸ rfl) (by decide)
  · exact foldlM_unit control
  · simp [List.foldlM, step, quote, backslash, control]

theorem foldlM_escapeAll (text : List Char) :
    (escapeAll text).foldlM step ⟨.text chars, tokens⟩ =
      some ⟨.text (text.reverse ++ chars), tokens⟩ := by
  induction text generalizing chars with
  | nil => rfl
  | cons c rest ih =>
      rw [escapeAll, List.foldlM_append, foldlM_escape]
      simp [ih]

/-- A quoted string is read as one token of text. -/
theorem foldlM_quote (s : String) :
    (quote s).foldlM step ⟨.gap, tokens⟩ = some ⟨.gap, .text s :: tokens⟩ := by
  have opened : step ⟨.gap, tokens⟩ '"' = some ⟨.text [], tokens⟩ := rfl
  rw [quote, List.foldlM_cons, opened, Option.bind_eq_bind, Option.bind_some,
    List.foldlM_append, foldlM_escapeAll]
  simp [List.foldlM, step]

theorem quote_injective : Function.Injective quote := by
  intro s t same
  have read : (quote s).foldlM step ⟨.gap, []⟩ = some ⟨.gap, [.text s]⟩ := foldlM_quote s
  rw [same, foldlM_quote] at read
  simpa using read.symm

end DataAccess.Json

namespace DataAccess

theorem Value.toJson_string_injective {s t : String}
    (same : (Value.string s).toJson = (Value.string t).toJson) : s = t :=
  Json.quote_injective (String.ofList_injective same)

end DataAccess
