import Keepsake.Proofs.Rows
import Keepsake.Yaml.Token
/-!
# Tokens that stand

Tokens are put in front of others only where a candidate becomes a key. So the tokens before every
candidate are the first tokens of the document, whatever follows (`Stands.run`).
-/

namespace Keepsake.Yaml

namespace Scanner

/-- The tokens `front`, the last of them first, stand before every candidate. -/
structure Stands (front : List Token) (s : Scanner) : Prop where
  tokens : front <:+ s.tokens
  count : s.count = s.tokens.length
  candidate : ∀ k ∈ s.candidate, front.length ≤ k.position
  outerCandidates : ∀ c ∈ s.outerCandidates, ∀ k ∈ c, front.length ≤ k.position

namespace Stands

variable {front : List Token} {s s' : Scanner}

/-- What a scanner does apart from its tokens and candidates does not matter. -/
theorem congr (h : s.Stands front) (ht : s'.tokens = s.tokens) (hn : s'.count = s.count)
    (hc : s'.candidate = s.candidate ∨ s'.candidate = none)
    (ho : s'.outerCandidates = s.outerCandidates) :
    s'.Stands front := by
  refine ⟨ht ▸ h.tokens, by rw [hn, ht, h.count], ?_, ho ▸ h.outerCandidates⟩
  rcases hc with hc | hc
  · exact hc ▸ h.candidate
  · rw [hc]
    exact fun _ h => by cases h

theorem emit (h : s.Stands front) (t : Token) : (s.emit t).Stands front where
  tokens := h.tokens.trans (List.suffix_cons t s.tokens)
  count := congrArg (· + 1) h.count
  candidate := h.candidate
  outerCandidates := h.outerCandidates

theorem length_le (h : s.Stands front) : front.length ≤ s.count := h.count ▸ h.tokens.length_le

theorem emitAt (h : s.Stands front) {position : Nat} (hp : front.length ≤ position)
    (ts : List Token) :
    (s.emitAt position ts).Stands front where
  tokens := by
    obtain ⟨later, hlater⟩ := h.tokens
    have hcount := h.count
    have hbehind : s.count - position ≤ later.length := by
      rw [hcount, ← hlater, List.length_append]
      omega
    refine List.IsSuffix.trans ?_ (List.suffix_append _ _)
    rw [← hlater, List.drop_append_of_le_length hbehind]
    exact List.suffix_append _ _
  count := by
    show s.count + ts.length = _
    simp only [Scanner.emitAt, List.length_append, List.length_take, List.length_drop, h.count]
    omega
  candidate := h.candidate
  outerCandidates := h.outerCandidates

theorem closeBlocks_tokens (column indent : Int) (outer : List Int) (ts : List Token) (n : Nat) :
    ts <:+ (closeBlocks column indent outer ts n).2.2.1 ∧
      (n = ts.length → (closeBlocks column indent outer ts n).2.2.2
        = (closeBlocks column indent outer ts n).2.2.1.length) := by
  induction outer generalizing indent ts n with
  | nil => exact ⟨List.suffix_refl ts, id⟩
  | cons o outer ih =>
    unfold closeBlocks
    split
    · obtain ⟨hsuffix, hlength⟩ := ih o (.blockEnd :: ts) (n + 1)
      exact ⟨(List.suffix_cons _ ts).trans hsuffix, fun h => hlength (congrArg (· + 1) h)⟩
    · exact ⟨List.suffix_refl ts, id⟩

theorem unroll (h : s.Stands front) (column : Int) : (s.unroll column).Stands front := by
  unfold Scanner.unroll
  split
  · exact h
  · obtain ⟨hsuffix, hlength⟩ := closeBlocks_tokens column s.indent s.outer s.tokens s.count
    exact ⟨h.tokens.trans hsuffix, hlength h.count, h.candidate, h.outerCandidates⟩

theorem roll (h : s.Stands front) (t : Token) : (s.roll t).Stands front := by
  unfold Scanner.roll
  split
  · exact ⟨(h.emit t).tokens, (h.emit t).count, h.candidate, h.outerCandidates⟩
  · exact h

theorem releaseCandidate (h : s.Stands front) (hs : s.releaseCandidate = some s') :
    s'.Stands front := by
  obtain ⟨c, hc, rfl⟩ := Option.map_eq_some_iff.1 hs
  refine ⟨h.tokens, h.count, ?_, h.outerCandidates⟩
  unfold release at hc
  split at hc
  · split at hc <;> cases hc
    exact fun _ h => by cases h
  · cases hc
    exact fun _ h => by cases h

theorem saveCandidate (h : s.Stands front) (hs : s.saveCandidate = some s') : s'.Stands front := by
  unfold Scanner.saveCandidate at hs
  split at hs
  · obtain ⟨s₁, hs₁, rfl⟩ := Option.map_eq_some_iff.1 hs
    have h₁ := h.releaseCandidate hs₁
    refine ⟨h₁.tokens, h₁.count, ?_, h₁.outerCandidates⟩
    rintro k hk
    cases hk
    exact h₁.length_le
  · cases hs
    exact h

theorem mem_of_expire {now : Mark} {c c' : Option Candidate} (h : expire now c = some c')
    {k : Candidate} (hk : k ∈ c') : k ∈ c := by
  unfold expire at h
  split at h
  · split at h
    · unfold release at h
      split at h
      · split at h <;> cases h
        cases hk
      · cases h
        cases hk
    · cases h
      exact hk
  · cases h
    cases hk

theorem expireCandidates (h : s.Stands front) (hs : s.expireCandidates = some s') :
    s'.Stands front := by
  simp only [Scanner.expireCandidates, bind, Option.bind_eq_some_iff, Option.some.injEq] at hs
  obtain ⟨c, hc, cs, hcs, rfl⟩ := hs
  refine ⟨h.tokens, h.count, fun k hk => h.candidate k (mem_of_expire hc hk), ?_⟩
  intro c' hc' k hk
  obtain ⟨c₀, hmem, hexpire⟩ := exists_of_mem_mapM hcs hc'
  exact h.outerCandidates c₀ hmem k (mem_of_expire hexpire hk)

theorem advance (h : s.Stands front) (hs : s.advance = some s') : s'.Stands front := by
  simp only [Scanner.advance, bind, Option.bind_eq_some_iff, Option.some.injEq] at hs
  obtain ⟨s₁, hs₁, rfl⟩ := hs
  refine (expireCandidates ?_ hs₁).unroll _
  exact h.congr rfl rfl (Or.inl rfl) rfl

/-! ## One token -/

theorem takeDirective (h : s.Stands front) (hs : s.takeDirective = some s') : s'.Stands front := by
  simp only [Scanner.takeDirective, bind, Option.bind_eq_some_iff, Option.some.injEq] at hs
  obtain ⟨s₁, hs₁, ⟨d, rest⟩, -, cursor, -, rfl⟩ := hs
  have h₁ := (h.unroll (-1)).releaseCandidate hs₁
  exact (h₁.emit (.directive d)).congr rfl rfl (Or.inl rfl) rfl

theorem takeMarker (h : s.Stands front) {t : Token} (hs : s.takeMarker t = some s') :
    s'.Stands front := by
  simp only [Scanner.takeMarker, bind, Option.bind_eq_some_iff, Option.some.injEq] at hs
  obtain ⟨s₁, hs₁, rfl⟩ := hs
  exact (((h.unroll (-1)).releaseCandidate hs₁).emit t).congr rfl rfl (Or.inl rfl) rfl

theorem takeOpening (h : s.Stands front) {t : Token} (hs : s.takeOpening t = some s') :
    s'.Stands front := by
  simp only [Scanner.takeOpening, bind, Option.bind_eq_some_iff, Option.some.injEq] at hs
  obtain ⟨s₁, hs₁, rfl⟩ := hs
  have h₁ := (h.saveCandidate hs₁).emit t
  refine ⟨h₁.tokens, h₁.count, fun _ h => (by cases h), ?_⟩
  intro c hc
  rcases List.mem_cons.1 hc with rfl | hc
  · exact h₁.candidate
  · exact h₁.outerCandidates c hc

theorem takeClosing (h : s.Stands front) {t : Token} (hs : s.takeClosing t = some s') :
    s'.Stands front := by
  simp only [Scanner.takeClosing, bind, Option.bind_eq_some_iff] at hs
  obtain ⟨s₁, hs₁, hs⟩ := hs
  have h₁ := (h.releaseCandidate hs₁).emit t
  split at hs
  · cases hs
    exact h₁.congr rfl rfl (Or.inl rfl) rfl
  · next c cs hcs =>
    cases hs
    have houter : ∀ c' ∈ c :: cs, ∀ k ∈ c', front.length ≤ k.position := hcs ▸ h₁.outerCandidates
    rw [List.forall_mem_cons] at houter
    exact ⟨h₁.tokens, h₁.count, houter.1, houter.2⟩

theorem takeComma (h : s.Stands front) (hs : s.takeComma = some s') : s'.Stands front := by
  simp only [Scanner.takeComma, bind, Option.bind_eq_some_iff, Option.some.injEq] at hs
  obtain ⟨s₁, hs₁, rfl⟩ := hs
  exact ((h.releaseCandidate hs₁).emit .comma).congr rfl rfl (Or.inl rfl) rfl

theorem takeEntry (h : s.Stands front) (hs : s.takeEntry = some s') : s'.Stands front := by
  unfold Scanner.takeEntry at hs
  split at hs
  · cases hs
  · simp only [bind, Option.bind_eq_some_iff, Option.some.injEq] at hs
    obtain ⟨s₁, hs₁, rfl⟩ := hs
    exact (((h.roll _).releaseCandidate hs₁).emit .entry).congr rfl rfl (Or.inl rfl) rfl

theorem takeKey (h : s.Stands front) (hs : s.takeKey = some s') : s'.Stands front := by
  unfold Scanner.takeKey at hs
  split at hs
  · cases hs
  · simp only [bind, Option.bind_eq_some_iff, Option.some.injEq] at hs
    obtain ⟨s₁, hs₁, rfl⟩ := hs
    exact (((h.roll _).releaseCandidate hs₁).emit .key).congr rfl rfl (Or.inl rfl) rfl

theorem takeValue (h : s.Stands front) (hs : s.takeValue = some s') : s'.Stands front := by
  unfold Scanner.takeValue at hs
  split at hs
  · next k hk =>
    have hposition := h.candidate k hk
    cases hs
    split
    · exact ((h.emitAt hposition _).emit .value).congr rfl rfl (Or.inr rfl) rfl
    · exact ((h.emitAt hposition _).emit .value).congr rfl rfl (Or.inr rfl) rfl
  · split at hs
    · cases hs
    · cases hs
      exact ((h.roll _).emit .value).congr rfl rfl (Or.inl rfl) rfl

theorem takeName (h : s.Stands front) {token : List Char → Token}
    (hs : s.takeName token = some s') :
    s'.Stands front := by
  simp only [Scanner.takeName, bind, Option.bind_eq_some_iff] at hs
  obtain ⟨s₁, hs₁, hs⟩ := hs
  split at hs
  · cases hs
  · cases hs
    exact ((h.saveCandidate hs₁).emit _).congr rfl rfl (Or.inl rfl) rfl

theorem takeTag (h : s.Stands front) (hs : s.takeTag = some s') : s'.Stands front := by
  simp only [Scanner.takeTag, bind, Option.bind_eq_some_iff, Option.some.injEq] at hs
  obtain ⟨s₁, hs₁, ⟨t, rest⟩, -, rfl⟩ := hs
  exact ((h.saveCandidate hs₁).emit (.tag t)).congr rfl rfl (Or.inl rfl) rfl

theorem takeBlockScalar (h : s.Stands front) {folded : Bool}
    (hs : s.takeBlockScalar folded = some s') :
    s'.Stands front := by
  simp only [Scanner.takeBlockScalar, bind, Option.bind_eq_some_iff, Option.some.injEq] at hs
  obtain ⟨s₁, hs₁, ⟨text, cursor⟩, -, rfl⟩ := hs
  exact ((h.releaseCandidate hs₁).emit (.scalar false text)).congr rfl rfl (Or.inl rfl) rfl

theorem takeQuoted (h : s.Stands front) {double : Bool} (hs : s.takeQuoted double = some s') :
    s'.Stands front := by
  simp only [Scanner.takeQuoted, bind, Option.bind_eq_some_iff] at hs
  obtain ⟨s₁, hs₁, hs⟩ := hs
  have hdone : ∀ {text : List Char} {cursor : Cursor},
      ({ s₁.emit (.scalar false text) with cursor, keyAllowed := false } : Scanner).Stands front :=
    ((h.saveCandidate hs₁).emit _).congr rfl rfl (Or.inl rfl) rfl
  split at hs
  · obtain ⟨r, -, hs⟩ := Option.bind_eq_some_iff.1 hs
    cases hs
    exact hdone
  · obtain ⟨r, -, hs⟩ := Option.bind_eq_some_iff.1 hs
    cases hs
    exact hdone

theorem takePlain (h : s.Stands front) (hs : s.takePlain = some s') : s'.Stands front := by
  simp only [Scanner.takePlain, bind, Option.bind_eq_some_iff, Option.some.injEq] at hs
  obtain ⟨s₁, hs₁, ⟨text, cursor, keyAllowed⟩, -, rfl⟩ := hs
  exact ((h.saveCandidate hs₁).emit (.scalar true text)).congr rfl rfl (Or.inl rfl) rfl

theorem of_ite {p : Prop} [Decidable p] {a b : Option Scanner} (hs : (if p then a else b) = some s')
    (ha : a = some s' → s'.Stands front) (hb : b = some s' → s'.Stands front) :
    s'.Stands front := by
  split at hs
  · exact ha hs
  · exact hb hs

/-- Every token leaves what stands. -/
theorem take (h : s.Stands front) {c : Char} {rest : List Char} (hs : s.take c rest = some s') :
    s'.Stands front := by
  unfold Scanner.take at hs
  refine of_ite hs h.takeDirective fun hs => of_ite hs h.takeMarker fun hs => ?_
  refine of_ite hs h.takeOpening fun hs => of_ite hs h.takeOpening fun hs => ?_
  refine of_ite hs h.takeClosing fun hs => of_ite hs h.takeClosing fun hs => ?_
  refine of_ite hs h.takeComma fun hs => of_ite hs h.takeEntry fun hs => ?_
  refine of_ite hs h.takeKey fun hs => of_ite hs h.takeValue fun hs => ?_
  refine of_ite hs h.takeName fun hs => of_ite hs h.takeName fun hs => ?_
  refine of_ite hs h.takeTag fun hs => ?_
  refine of_ite hs h.takeBlockScalar fun hs => of_ite hs h.takeBlockScalar fun hs => ?_
  refine of_ite hs h.takeQuoted fun hs => of_ite hs h.takeQuoted fun hs => ?_
  exact of_ite hs h.takePlain fun hs => by cases hs

/-! ## The run -/

theorem finish (h : s.Stands front) {ts : List Token} (hs : s.finish = some ts) :
    front.reverse <+: ts := by
  obtain ⟨s₁, hs₁, rfl⟩ := Option.map_eq_some_iff.1 hs
  exact List.reverse_prefix.2 ((h.unroll (-1)).releaseCandidate hs₁).tokens

/-- What stands is the beginning of the document. -/
theorem run {fuel : Nat} (h : s.Stands front) {ts : List Token}
    (hs : Scanner.run fuel s = some ts) :
    front.reverse <+: ts := by
  induction fuel generalizing s with
  | zero => cases hs
  | succ fuel ih =>
    simp only [Scanner.run, bind, Option.bind_eq_some_iff] at hs
    obtain ⟨s₁, hs₁, hs⟩ := hs
    have h₁ := h.advance hs₁
    split at hs
    · exact h₁.finish hs
    · obtain ⟨s₂, hs₂, hs⟩ := Option.bind_eq_some_iff.1 hs
      exact ih (h₁.take hs₂) hs

end Stands

end Scanner

end Keepsake.Yaml
