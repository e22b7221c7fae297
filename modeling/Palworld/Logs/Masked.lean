import Palworld.Logs.Redaction

/-!
# What is left of a credential

A credential behind `Bearer` or `Basic` is masked wherever the passes come to stand at the
scheme. What is put in for other matches could only spell it again.
-/

open Lib

namespace Palworld.Logs

/-! ## What the passes write -/

section

variable {c : Char} {k s t u v x body rest : Text} {words : List Text} {tail : Text → Option Text}

/-- A word with what belongs behind it. -/
def Kept (words : List Text) (tail : Text → Option Text) (k after : Text) : Prop := k.map foldCase ∈ words ∧ (tail after).isSome

theorem marks_afterWord {e : Char} {placeholder : Text} (hplace : placeholder = e :: '[' :: (body ++ [']']))
    (htail : ∀ s rest, tail s = some rest → rest <:+ s) :
    Marks (afterWord words tail placeholder) (Kept words tail) (some e) '[' body ']' where
  written := by
    subst hplace
    intro v r rest h
    obtain ⟨k, after, hk, rfl, hafter, rfl⟩ := afterWord_eq_some h
    exact ⟨k, after, rfl, ⟨hk, by rw [hafter]; rfl⟩, htail after rest hafter, rfl⟩

def redacted : Text := lit "REDACTED"

def redactedUuid : Text := lit "REDACTED_UUID"

theorem marks_keyed : Marks keyed (Kept keywords valueAfter) (some '=') '[' redacted ']' := marks_afterWord (by decide) valueAfter_suffix

theorem marks_credential : Marks credential (Kept schemes credentialAfter) (some ' ') '[' redacted ']' :=
  marks_afterWord (by decide) credentialAfter_suffix

theorem marks_uuid : Marks uuid (fun k _ => k = []) none '[' redactedUuid ']' where
  written := by
    intro v r rest h
    obtain ⟨rfl, hrest, -⟩ := uuid_eq_some h
    exact ⟨[], v, rfl, rfl, hrest, rfl⟩

/-! ## The characters of a credential -/

theorem toNat_of_credential (h : isCredentialChar c = true) : c.toNat = 0x130 ∨ c.toNat = 0x131 ∨ c.toNat = 0x17F ∨
    c.toNat = 0x212A ∨ c.toNat = 43 ∨ c.toNat = 61 ∨ c.toNat = 95 ∨ (45 ≤ c.toNat ∧ c.toNat ≤ 57) ∨ (65 ≤ c.toNat ∧ c.toNat ≤ 90) ∨
    (97 ≤ c.toNat ∧ c.toNat ≤ 122) := by
  unfold isCredentialChar at h
  rcases foldCase_cases c with hc | ⟨-, hc⟩
  · rw [hc] at h
    rcases (Bool.or_eq_true _ _).mp h with h | h
    · have hcodes := isAlphanum_iff_toNat.mp h
      omega
    · have hall : (['+', '/', '=', '.', '_', '-'].all fun d => [43, 47, 61, 46, 95, 45].contains d.toNat) = true := by decide
      have hother := List.all_eq_true.mp hall c (List.contains_iff_mem.mp h)
      simp only [List.contains_cons, List.contains_nil, Bool.or_eq_true, beq_iff_eq, Bool.or_false] at hother
      omega
  · omega

theorem isSpace_of_credential (h : isCredentialChar c = true) : isSpace c = false := by
  have hc := toNat_of_credential h
  simp only [isSpace, Bool.or_eq_false_iff, Bool.and_eq_false_iff, decide_eq_false_iff_not, beq_eq_false_iff_ne]
  omega

theorem isValueChar_of_credential (h : isCredentialChar c = true) : isValueChar c = true := by
  have hc := toNat_of_credential h
  have hdouble : '"'.toNat = 34 := rfl
  have hsingle : '\''.toNat = 39 := rfl
  have hcomma : ','.toNat = 44 := rfl
  rw [isValueChar, isQuote, isSpace_of_credential h, bne, beq_of_toNat_ne (by omega), beq_of_toNat_ne (by omega), beq_of_toNat_ne (by omega)]
  rfl

theorem isAlphanum_of_isLower (h : c.isLower = true) : c.isAlphanum = true := by
  show (c.isUpper || c.isLower || c.isDigit) = true
  rw [h, Bool.or_true, Bool.true_or]

theorem isCredentialChar_of_letter (h : isLetter (foldCase c) = true) : isCredentialChar c = true := by
  unfold isCredentialChar
  rcases foldCase_cases c with hc | ⟨hlower, -⟩
  · rw [hc] at h ⊢
    rcases (Bool.or_eq_true _ _).mp h with h | h
    · have hlower : c.isLower = true := h
      rw [isAlphanum_of_isLower hlower, Bool.true_or]
    · rw [beq_iff_eq.mp h]
      decide
  · rw [isAlphanum_of_isLower hlower, Bool.true_or]

/-! ## The scheme -/

theorem scan_scheme (hk : k.map foldCase ∈ schemes) (s : Text) : Scan keyed s (k ++ ' ' :: s) (k ++ [' ']) := by
  have hblank : ∀ w ∈ keywords, ∀ x ∈ [' '].tails, x ≠ [] → dies (wordStep valueStep .sep) (.word w) x = true := by decide
  have hscan : Scan keyed s ((k ++ [' ']) ++ s) (k ++ [' ']) := by
    refine Scan.of_copies fun x hx hne => ?_
    rcases suffix_append_cases hx with hx | ⟨k', hk', hsuffix, rfl⟩
    · exact keyed_dead hblank hx hne s
    · rw [List.append_assoc]
      exact keyed_scheme hk hsuffix hk' _
  rwa [List.append_assoc] at hscan

theorem credential_scheme (hk : k.map foldCase ∈ schemes) (hc : isCredentialChar c = true) (s : Text) :
    credential (k ++ ' ' :: c :: s) = some (k ++ schemePlaceholder, s.dropWhile isCredentialChar) := by
  have hspace : isSpace c = false := isSpace_of_credential hc
  have hafter : credentialAfter (' ' :: c :: s) = some (s.dropWhile isCredentialChar) := by
    rw [credentialAfter, if_pos (by decide), credentialOf, List.dropWhile_cons_of_neg (by simp [hspace])]
    exact if_pos hc
  cases hmatch : credential (k ++ ' ' :: c :: s) with
  | none =>
    have hnone := credential_eq_none.mp hmatch _ hk
    rw [← Bool.not_eq_true, reaches_word] at hnone
    refine absurd ⟨_, stripWord_eq_some.mpr ⟨k, rfl, rfl⟩, ?_⟩ hnone
    rw [← credentialAfter_isSome, hafter]
    rfl
  | some found =>
    obtain ⟨r, rest⟩ := found
    obtain ⟨k', after, hk', heq, hrest, rfl⟩ := afterWord_eq_some hmatch
    rcases List.append_eq_append_iff.mp heq with ⟨z, rfl, hz⟩ | ⟨z, rfl, rfl⟩
    · cases z with
      | nil =>
        rw [List.nil_append] at hz
        rw [← hz, hafter] at hrest
        cases hrest
        rw [List.append_nil]
      | cons d z =>
        obtain ⟨rfl, -⟩ := List.cons.inj hz
        exact absurd (letters_of_scheme (c := ' ') hk' (by simp)) (by decide)
    · cases z with
      | nil =>
        rw [List.nil_append, hafter] at hrest
        cases hrest
        rw [List.append_nil]
      | cons d z =>
        have hd : isSpace d = false := isSpace_of_fold (letters_of_scheme hk (by simp))
        rw [List.cons_append, credentialAfter, hd] at hrest
        cases hrest

/-! ## The credential behind the scheme -/

theorem not_mem_credential {l : Char} (hc : ∀ d ∈ x, isCredentialChar d = true) (hl : isCredentialChar l = false) : l ∉ x := by
  intro hmem
  rw [hc l hmem] at hl
  cases hl

/-- What the first pass takes from a credential, it takes to its end. -/
theorem keyed_rest (hc : ∀ d ∈ x, isCredentialChar d = true) {r : Text} (h : keyed (x ++ s) = some (r, rest)) : rest <:+ s := by
  obtain ⟨k, after, -, hs, hafter, -⟩ := afterWord_eq_some h
  have hrest : rest <:+ x ++ s := hs ▸ (valueAfter_suffix _ _ hafter).trans (List.suffix_append k after)
  rcases suffix_append_cases hrest with hrest | ⟨y, hy, hsuffix, rfl⟩
  · exact hrest
  · cases y with
    | nil => exact absurd rfl hy
    | cons d y =>
      have hd := isValueChar_of_credential (hc d (hsuffix.subset (List.mem_cons_self ..)))
      exact absurd (valueAfter_dropWhile hafter) (dropWhile_ne hd)

theorem infix_of_brackets (hl : '[' ∉ x) (hr : ']' ∉ x) (h : x <:+: s ++ '[' :: (body ++ ']' :: t)) : x <:+: s ∨ x <:+: body ∨ x <:+: t := by
  rcases infix_of_fence hl h with h | h
  · exact .inl h
  · exact .inr (infix_of_fence hr h)

theorem sub_eq {m : Matcher Char} (hm : m.Shrinks) (h : Scan m t s u) : sub m s = u ++ sub m t :=
  Subs.unique hm (subs_sub hm s) (h.subs (subs_sub hm t))

/-- What the first pass makes of an end of the line was there, or the pass put it in. -/
theorem keyed_parts {line behind z : Text} (hscan : Scan keyed s line u) (hs : s <:+ behind) (hl : '[' ∉ z) (hr : ']' ∉ z)
    (hz : z <:+: sub keyed s) : z <:+: behind ∨ z <:+: redacted ∨ Spliced keyed (Kept keywords valueAfter) (some '=') line z := by
  have hfull := subs_iff_scan.mp (subs_sub keyed_shrinks s)
  rcases hfull.parts marks_keyed (List.append_nil s).symm hl hr ((List.append_nil (sub keyed s)).symm ▸ hz) with h | ⟨h, -⟩ | h
  · rw [List.append_nil] at h
    exact .inl (h.trans hs.isInfix)
  · exact .inr (.inl h)
  · exact .inr (.inr (h.behind hscan))

/-- A key that begins within a credential leaves credential characters up to the bracket of its placeholder. -/
theorem keyed_within {r : Text} (hx : ∀ d ∈ x, isCredentialChar d = true) (hmatch : keyed t = some (r, rest)) (hscan : Scan keyed t s x) :
    ∃ d u, sub keyed s = d :: u ∧ isCredentialChar d = true ∧
      u.dropWhile isCredentialChar = '[' :: (redacted ++ ']' :: sub keyed rest) := by
  obtain ⟨key, after, hkey, -, -, rfl⟩ := afterWord_eq_some hmatch
  have hkept : ∀ d ∈ x ++ (key ++ ['=']), isCredentialChar d = true := by
    intro d hd
    rcases List.mem_append.mp hd with hd | hd
    · exact hx d hd
    rcases List.mem_append.mp hd with hd | hd
    · exact isCredentialChar_of_letter (letters_of_keyword hkey hd)
    · rw [List.mem_singleton.mp hd]
      decide
  have hsubs : sub keyed s = (x ++ (key ++ ['='])) ++ '[' :: (redacted ++ ']' :: sub keyed rest) := by
    have hplace : keyPlaceholder = '=' :: '[' :: (redacted ++ [']']) := by decide
    rw [sub_eq keyed_shrinks (hscan.trans (.replace hmatch .here)), hplace]
    simp
  obtain ⟨d, u, hu⟩ : ∃ d u, x ++ (key ++ ['=']) = d :: u := List.exists_cons_of_ne_nil (by simp)
  rw [hu, List.forall_mem_cons] at hkept
  refine ⟨d, u ++ '[' :: (redacted ++ ']' :: sub keyed rest), by rw [hsubs, hu]; rfl, hkept.1, ?_⟩
  rw [List.dropWhile_append_of_pos hkept.2, List.dropWhile_cons_of_neg (by decide)]

/-- Behind a scheme, the first pass leaves a credential. What follows its end was behind it, or the first pass put it in. -/
theorem keyed_credential (hk : k.map foldCase ∈ schemes) {cred : Text} (behind : Text) (hne : cred ≠ [])
    (hcred : ∀ d ∈ cred, isCredentialChar d = true) :
    ∃ d u, sub keyed (k ++ ' ' :: (cred ++ behind)) = k ++ ' ' :: d :: u ∧ isCredentialChar d = true ∧
      ∀ z, '[' ∉ z → ']' ∉ z → z <:+: u.dropWhile isCredentialChar →
        z <:+: behind ∨ z <:+: redacted ∨ Spliced keyed (Kept keywords valueAfter) (some '=') (k ++ ' ' :: (cred ++ behind)) z := by
  have hstands := scan_scheme hk (cred ++ behind)
  have hsub : sub keyed (k ++ ' ' :: (cred ++ behind)) = k ++ ' ' :: sub keyed (cred ++ behind) := by
    rw [sub_eq keyed_shrinks hstands, List.append_assoc]
    rfl
  rw [hsub]
  rcases Scan.part keyed cred behind with hscan | ⟨x, y, r, rest, rfl, hy, hmatch, hscan⟩
  · -- No key begins in the credential.
    obtain ⟨d, cred, rfl⟩ := List.exists_cons_of_ne_nil hne
    rw [List.forall_mem_cons] at hcred
    refine ⟨d, cred ++ sub keyed behind, by rw [sub_eq keyed_shrinks hscan]; rfl, hcred.1, fun z hl hr hz => ?_⟩
    rw [List.dropWhile_append_of_pos hcred.2] at hz
    exact keyed_parts (hstands.trans hscan) (List.suffix_refl _) hl hr (hz.trans (List.dropWhile_suffix _).isInfix)
  · -- A key takes the rest of the credential.
    have hrest := keyed_rest (fun d hd => hcred d (List.mem_append_right x hd)) hmatch
    obtain ⟨d, u, hu, hd, hdrop⟩ := keyed_within (fun d hd => hcred d (List.mem_append_left _ hd)) hmatch hscan
    refine ⟨d, u, by rw [hu], hd, fun z hl hr hz => ?_⟩
    rw [hdrop] at hz
    rcases infix_of_brackets (s := []) hl hr hz with h | h | h
    · rw [List.eq_nil_of_infix_nil h]
      exact .inl List.nil_infix
    · exact .inr (.inl h)
    · exact keyed_parts (hstands.trans (hscan.trans (.replace hmatch .here))) hrest hl hr h

/-! ## The line -/

/-- The first two passes come to stand at `t`: no match in front of it takes a part of it. -/
def Untaken (line t : Text) : Prop := (∃ u, Scan keyed t line u) ∧ ∃ u, Scan credential (sub keyed t) (sub keyed line) u

/-- What the passes put in spells `c`: a placeholder does, or what ends with the `=` behind a key. -/
def Spelled (line c : Text) : Prop :=
  c <:+: redacted ∨ (c <:+: redactedUuid ∧ uuidPlaceholder <:+: sanitizeLogText line) ∨
    Spliced keyed (Kept keywords valueAfter) (some '=') line c

/-- In the line, `c` stands behind `front` and nowhere else. -/
def OnlyBehind (line front c : Text) : Prop := ∀ a b, line = a ++ (c ++ b) → a = front

theorem onlyBehind_iff {line front c : Text} : OnlyBehind line front c ↔ ∀ a ∈ line.inits, c <+: line.drop a.length → a = front := by
  constructor
  · intro h a ha hc
    obtain ⟨b, hb⟩ := hc
    obtain ⟨s, rfl⟩ := (List.mem_inits _ _).mp ha
    rw [List.drop_left] at hb
    exact h a b (by rw [hb])
  · rintro h a b rfl
    exact h a ((List.mem_inits _ _).mpr (List.prefix_append ..)) (by simp)

instance (line front c : Text) : Decidable (OnlyBehind line front c) := decidable_of_iff _ onlyBehind_iff.symm

theorem OnlyBehind.not_front {front scheme cred behind : Text}
    (h : OnlyBehind (front ++ (scheme ++ ' ' :: (cred ++ behind))) (front ++ (scheme ++ [' '])) cred) : ¬cred <:+: front ++ scheme := by
  rintro ⟨a, b, hab⟩
  have ha := h a (b ++ ' ' :: (cred ++ behind)) (by rw [← List.append_assoc front, ← hab]; simp)
  have hlen := congrArg List.length hab
  rw [ha] at hlen
  simp only [List.length_append, List.length_cons, List.length_nil] at hlen
  omega

theorem OnlyBehind.not_behind {front scheme cred behind : Text} (hne : cred ≠ [])
    (h : OnlyBehind (front ++ (scheme ++ ' ' :: (cred ++ behind))) (front ++ (scheme ++ [' '])) cred) : ¬cred <:+: behind := by
  rintro ⟨a, b, rfl⟩
  have ha := h (front ++ (scheme ++ ' ' :: (cred ++ a))) b (by simp)
  have hlen := congrArg List.length ha
  have hpos := List.length_pos_iff.mpr hne
  simp only [List.length_append, List.length_cons, List.length_nil] at hlen
  omega

/-- The second pass writes nothing but the placeholder that could spell a credential. -/
theorem credential_parts {p w cred : Text} (hne : cred ≠ []) (hcred : ∀ d ∈ cred, isCredentialChar d = true) (h : Scan credential t s u)
    (hs : s = p ++ t) (hleft : cred <:+: u ++ w) : cred <:+: p ++ w ∨ cred <:+: redacted := by
  rcases h.parts marks_credential hs (not_mem_credential hcred (by decide)) (not_mem_credential hcred (by decide)) hleft with
    h | ⟨h, -⟩ | h
  · exact .inl h
  · exact .inr h
  · obtain ⟨z, rfl⟩ := h.ends hne
    exact absurd (by simp) (not_mem_credential hcred (l := ' ') (by decide))

/-- What two passes leave of a line at whose scheme both come to stand. -/
theorem sub_credential {line front : Text} {d : Char} (hk : k.map foldCase ∈ schemes) (hd : isCredentialChar d = true)
    (hkeyed : sub keyed t = k ++ ' ' :: d :: u) (hsecond : Scan credential (sub keyed t) (sub keyed line) front) :
    sub credential (sub keyed line) = (front ++ k ++ [' ']) ++ '[' :: (redacted ++ ']' :: sub credential (u.dropWhile isCredentialChar)) := by
  have hplace : schemePlaceholder = ' ' :: '[' :: (redacted ++ [']']) := by decide
  have hmatch := credential_scheme hk hd u
  rw [← hkeyed] at hmatch
  rw [sub_eq credential_shrinks hsecond, sub_eq credential_shrinks (.replace hmatch .here), hplace]
  simp

/-- What the first two passes write in front of the scheme was there, or it is spelled. -/
theorem front_parts {front front' front'' w cred : Text} (hne : cred ≠ []) (hcred : ∀ d ∈ cred, isCredentialChar d = true)
    (hfirst : Scan keyed t (front ++ t) front') (hsecond : Scan credential (sub keyed t) (sub keyed (front ++ t)) front'')
    (h : cred <:+: front'' ++ w) : cred <:+: front ++ w ∨ Spelled (front ++ t) cred := by
  rcases credential_parts hne hcred hsecond (sub_eq keyed_shrinks hfirst) h with h | h
  · rcases hfirst.parts marks_keyed rfl (not_mem_credential hcred (by decide)) (not_mem_credential hcred (by decide)) h with h | ⟨h, -⟩ | h
    · exact .inl h
    · exact .inr (.inl h)
    · exact .inr (.inr (.inr h))
  · exact .inr (.inl h)

/-- A credential behind a scheme is masked, if no match in front of it takes the scheme and nothing that is put in spells it. -/
theorem credential_masked {front scheme cred behind : Text} (hscheme : scheme = lit "Bearer" ∨ scheme = lit "Basic") (hne : cred ≠ [])
    (hcred : ∀ d ∈ cred, isCredentialChar d = true)
    (honce : OnlyBehind (front ++ (scheme ++ ' ' :: (cred ++ behind))) (front ++ (scheme ++ [' '])) cred)
    (huntaken : Untaken (front ++ (scheme ++ ' ' :: (cred ++ behind))) (scheme ++ ' ' :: (cred ++ behind)))
    (hspelled : ¬Spelled (front ++ (scheme ++ ' ' :: (cred ++ behind))) cred) :
    ¬cred <:+: sanitizeLogText (front ++ (scheme ++ ' ' :: (cred ++ behind))) := by
  have hk : scheme.map foldCase ∈ schemes := by
    rcases hscheme with rfl | rfl <;> decide
  have hl : '[' ∉ cred := not_mem_credential hcred (by decide)
  have hr : ']' ∉ cred := not_mem_credential hcred (by decide)
  obtain ⟨⟨front', hfirst⟩, front'', hsecond⟩ := huntaken
  obtain ⟨d, u, hkeyed, hd, hrest⟩ := keyed_credential hk behind hne hcred
  -- What the passes write is followed back to the line, from the last pass to the first.
  have hback : cred <:+: sub credential (u.dropWhile isCredentialChar) →
      cred <:+: behind ∨ Spelled (front ++ (scheme ++ ' ' :: (cred ++ behind))) cred := by
    intro h
    rcases credential_parts (w := []) hne hcred (subs_iff_scan.mp (subs_sub credential_shrinks _)) (List.append_nil _).symm (by rwa [List.append_nil]) with h | h
    · rw [List.append_nil] at h
      rcases hrest cred hl hr h with h | h | h
      · exact .inl h
      · exact .inr (.inl h)
      · exact .inr (.inr (.inr (h.behind hfirst)))
    · exact .inr (.inl h)
  intro hleft
  have huuid := subs_iff_scan.mp (subs_sub uuid_shrinks (sub credential (sub keyed (front ++ (scheme ++ ' ' :: (cred ++ behind))))))
  rcases huuid.parts (w := []) marks_uuid (List.append_nil _).symm hl hr (by rwa [List.append_nil]) with h | ⟨h, hmark⟩ | h
  · rw [List.append_nil, sub_credential hk hd hkeyed hsecond] at h
    rcases infix_of_brackets hl hr h with h | h | h
    · rcases infix_of_fence (not_mem_credential hcred (l := ' ') (by decide)) h with h | h
      · exact (front_parts hne hcred hfirst hsecond h).elim honce.not_front hspelled
      · exact hne (List.eq_nil_of_infix_nil h)
    · exact hspelled (.inl h)
    · exact (hback h).elim (honce.not_behind hne) hspelled
  · rw [List.append_nil] at hmark
    exact hspelled (.inr (.inl ⟨h, hmark⟩))
  · obtain ⟨-, -, -, e, -, -, he, -⟩ := h
    cases he

theorem credential_masked_sent : ¬lit "abc" <:+: sanitizeLogText (lit "sent Bearer abc, ok") := by
  have hkeyed : ∀ x, x <:+ lit "sent " → x ≠ [] → keyed (x ++ lit "Bearer abc, ok") = none := by
    intro x hx hne
    have hall : ((lit "sent ").tails.all fun x => x == [] || (keyed (x ++ lit "Bearer abc, ok")).isNone) = true := by decide
    simpa [hne] using List.all_eq_true.mp hall x ((List.mem_tails _ _).mpr hx)
  have hcredential : ∀ x, x <:+ lit "sent " → x ≠ [] → credential (x ++ lit "Bearer abc, ok") = none := by
    intro x hx hne
    have hall : ((lit "sent ").tails.all fun x => x == [] || (credential (x ++ lit "Bearer abc, ok")).isNone) = true := by decide
    simpa [hne] using List.all_eq_true.mp hall x ((List.mem_tails _ _).mpr hx)
  have hsub : sub keyed (lit "Bearer abc, ok") = lit "Bearer abc, ok" := by decide
  have hline : sub keyed (lit "sent Bearer abc, ok") = lit "sent Bearer abc, ok" := by decide
  have hsecond : Scan credential (sub keyed (lit "Bearer abc, ok")) (sub keyed (lit "sent Bearer abc, ok")) (lit "sent ") := by
    rw [hsub, hline]
    exact Scan.of_copies hcredential
  refine @credential_masked (lit "sent ") (lit "Bearer") (lit "abc") (lit ", ok") (.inl rfl) (by decide)
    (List.all_eq_true.mp (by decide)) (by decide) ⟨⟨_, Scan.of_copies hkeyed⟩, _, hsecond⟩ ?_
  rintro (h | ⟨h, -⟩ | h)
  · exact absurd h (by decide)
  · exact absurd h (by decide)
  · obtain ⟨z, hz⟩ := h.ends (by decide)
    have hlast := congrArg List.getLast? hz
    rw [List.getLast?_concat] at hlast
    exact absurd hlast (by decide)

/-- A placeholder can spell the credential, and a match in front of it can take the scheme. -/
theorem credential_left : (OnlyBehind (lit "Bearer RED") (lit "Bearer ") (lit "RED") ∧ lit "RED" <:+: sanitizeLogText (lit "Bearer RED")) ∧
    OnlyBehind (lit "token=Bearer abc") (lit "token=Bearer ") (lit "abc") ∧
      lit "abc" <:+: sanitizeLogText (lit "token=Bearer abc") := by
  decide

end

end Palworld.Logs
