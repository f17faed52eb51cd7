import Mathlib.Data.List.Infix
import Mathlib.Tactic.Common

/-!
# Redis glob matching

`stringmatchlen` is the server's matcher for `SCAN`, `KEYS` and `PSUBSCRIBE`
patterns.  A pattern is read once into tokens (`tokenize`) and the tokens are
matched against the key, `*` trying every suffix.  Texts are matched character
by character where the server matches bytes, so `?` and a class take one
character of a non-ASCII text and not one byte of it.  The reading follows the
server's:

* `*` any run, `?` one character, `\c` the character `c` itself;
* `[...]` a class with `^` negation, `a-b` ranges in either order and `\`
  escapes; a class that never closes ends with the pattern;
* every other character, `]` `^` `-` included, is a literal.

The main facts: a literal word matches itself, a literal word followed by `*`
matches its extensions (`matchTokens_literal_star`), and a word with a special
character followed by `*` never has that meaning
(`special_star_not_prefix`).
-/

namespace Glob

/-- One member of a character class. -/
inductive ClassItem
  | one (c : Char)
  | range (lo hi : Char)
  deriving DecidableEq, Repr

/-- One step of a pattern. -/
inductive Token
  | star
  | any
  | cls (negated : Bool) (items : List ClassItem)
  | lit (c : Char)
  deriving DecidableEq, Repr

/-- Membership in a class item; a reversed range is swapped. -/
def ClassItem.holds : ClassItem → Char → Bool
  | one a, c => c == a
  | range lo hi, c => (lo ≤ c && c ≤ hi) || (hi ≤ c && c ≤ lo)

/-- Whether a token other than `star` accepts one character. -/
def Token.accepts : Token → Char → Bool
  | star, _ => false
  | any, _ => true
  | cls negated items, c => items.any (·.holds c) != negated
  | lit a, c => c == a

/-- Where the reader of a pattern stands: between tokens, or inside a class
with the items read so far. -/
inductive Mode
  | between
  | inClass (negated : Bool) (items : List ClassItem)

/-- Read a pattern into tokens. -/
def tokenizeIn : Mode → List Char → List Token
  | .between, [] => []
  | .between, '*' :: p => .star :: tokenizeIn .between p
  | .between, '?' :: p => .any :: tokenizeIn .between p
  | .between, '[' :: '^' :: p => tokenizeIn (.inClass true []) p
  | .between, '[' :: p => tokenizeIn (.inClass false []) p
  | .between, '\\' :: c :: p => .lit c :: tokenizeIn .between p
  | .between, c :: p => .lit c :: tokenizeIn .between p
  -- the pattern ended inside a class: the class is what was read
  | .inClass negated items, [] => [.cls negated items]
  | .inClass negated items, '\\' :: c :: p => tokenizeIn (.inClass negated (items ++ [.one c])) p
  | .inClass negated items, ']' :: p => .cls negated items :: tokenizeIn .between p
  | .inClass negated items, lo :: '-' :: hi :: p =>
      tokenizeIn (.inClass negated (items ++ [.range lo hi])) p
  | .inClass negated items, c :: p => tokenizeIn (.inClass negated (items ++ [.one c])) p

/-- The tokens of a pattern. -/
def tokenize (p : List Char) : List Token := tokenizeIn .between p

/-- Match tokens against a whole key. -/
def matchTokens : List Token → List Char → Bool
  | [], s => s.isEmpty
  | .star :: ts, s => s.tails.any (matchTokens ts)
  | _ :: _, [] => false
  | t :: ts, c :: s => t.accepts c && matchTokens ts s

/-- The server's matcher.  Its loop does not start on an empty key, which
therefore matches the empty pattern only. -/
def stringmatchlen (pattern key : List Char) : Bool :=
  if key.isEmpty then pattern.isEmpty else matchTokens (tokenize pattern) key

/-- The characters with a meaning of their own between tokens. -/
def special (c : Char) : Bool := c == '*' || c == '?' || c == '[' || c == '\\'

/-- A literal character is its own token. -/
theorem tokenize_cons_literal {c : Char} (hc : special c = false) (p : List Char) :
    tokenize (c :: p) = .lit c :: tokenize p := by
  simp only [special, Bool.or_eq_false_iff, beq_eq_false_iff_ne] at hc
  obtain ⟨⟨⟨hstar, hany⟩, hopen⟩, hesc⟩ := hc
  unfold tokenize
  rw [tokenizeIn] <;> simp_all

/-- A literal word is a run of literal tokens. -/
theorem tokenize_append_literal {w : List Char} (hw : ∀ c ∈ w, special c = false)
    (p : List Char) : tokenize (w ++ p) = w.map .lit ++ tokenize p := by
  induction w with
  | nil => rfl
  | cons c w ih =>
      rw [List.cons_append, tokenize_cons_literal (hw c (by simp)),
        ih (fun d hd => hw d (by simp [hd]))]
      rfl

/-- Literal tokens consume exactly their word. The induction is on the word, a
character at a time. -/
theorem matchTokens_literal_append (w : List Char) (ts : List Token) (s : List Char) :
    matchTokens (w.map .lit ++ ts) s = true ↔
      ∃ t, s = w ++ t ∧ matchTokens ts t = true := by
  induction w generalizing s with
  | nil => simp
  | cons a w ih =>
      cases s with
      | nil => simp [matchTokens]
      | cons c s =>
          simp only [List.map_cons, List.cons_append, matchTokens, Token.accepts,
            Bool.and_eq_true, beq_iff_eq, ih, List.cons.injEq]
          constructor
          · rintro ⟨rfl, t, rfl, ht⟩
            exact ⟨t, ⟨rfl, rfl⟩, ht⟩
          · rintro ⟨t, ⟨rfl, rfl⟩, ht⟩
            exact ⟨rfl, t, rfl, ht⟩

/-- `*` tries every suffix. -/
theorem matchTokens_star {ts : List Token} {s : List Char} :
    matchTokens (.star :: ts) s = true ↔ ∃ t, t <:+ s ∧ matchTokens ts t = true := by
  simp [matchTokens, List.any_eq_true]

/-- A leading `*` absorbs one more character. -/
theorem matchTokens_star_cons {ts : List Token} {s : List Char}
    (h : matchTokens (.star :: ts) s = true) (c : Char) :
    matchTokens (.star :: ts) (c :: s) = true := by
  obtain ⟨t, ht, hm⟩ := matchTokens_star.mp h
  exact matchTokens_star.mpr ⟨t, ht.trans (List.suffix_cons c s), hm⟩

/-- A literal word matches itself only. -/
theorem matchTokens_literal (w s : List Char) :
    matchTokens (w.map .lit) s = true ↔ s = w := by
  have h := matchTokens_literal_append w [] s
  simpa [matchTokens] using h

/-- A literal word followed by `*` matches the extensions of the word. -/
theorem matchTokens_literal_star (w s : List Char) :
    matchTokens (w.map .lit ++ [.star]) s = true ↔ w <+: s := by
  rw [matchTokens_literal_append]
  constructor
  · rintro ⟨t, rfl, -⟩
    exact List.prefix_append w t
  · rintro ⟨t, rfl⟩
    exact ⟨t, rfl, matchTokens_star.mpr ⟨[], List.nil_suffix, rfl⟩⟩

/-- How many characters a pattern needs at least: one for each token that is
not `*`. -/
def needed (ts : List Token) : Nat := ts.countP (· != .star)

/-- A pattern that matches anything matches something as short as it needs.
Each star can be made to match nothing, and each of the other tokens takes one
character. -/
theorem exists_short_match {ts : List Token} {s : List Char}
    (h : matchTokens ts s = true) :
    ∃ t, matchTokens ts t = true ∧ t.length = needed ts := by
  induction ts generalizing s with
  | nil => exact ⟨[], rfl, rfl⟩
  | cons tok ts ih =>
      cases tok with
      | star =>
          obtain ⟨u, -, hu⟩ := matchTokens_star.mp h
          obtain ⟨t, ht, hlen⟩ := ih hu
          exact ⟨t, matchTokens_star.mpr ⟨t, List.suffix_refl t, ht⟩, by simpa [needed] using hlen⟩
      | any | cls | lit =>
          cases s with
          | nil => simp [matchTokens] at h
          | cons c s =>
              simp only [matchTokens, Bool.and_eq_true] at h
              obtain ⟨t, ht, hlen⟩ := ih h.2
              exact ⟨c :: t, by simp [matchTokens, h.1, ht], by simpa [needed] using hlen⟩

/-- What is left of a word ending in `*` after its first character. -/
theorem tail_ends_with_star {c : Char} {p : List Char}
    (h : (c :: p).getLast? = some '*') : (p = [] ∧ c = '*') ∨ p.getLast? = some '*' := by
  cases p with
  | nil => exact Or.inl ⟨rfl, by simpa using h⟩
  | cons d p => exact Or.inr (by simpa [List.getLast?_cons_cons] using h)

/-- A pattern that ends in a star is not empty. -/
theorem pos_of_ends_with_star {p : List Char} (h : p.getLast? = some '*') : 0 < p.length := by
  cases p with
  | nil => simp at h
  | cons c p => simp

@[simp] theorem needed_nil : needed [] = 0 := rfl

@[simp] theorem needed_star (ts : List Token) : needed (.star :: ts) = needed ts := by
  simp [needed]

@[simp] theorem needed_any (ts : List Token) : needed (.any :: ts) = needed ts + 1 := by
  simp [needed]

@[simp] theorem needed_lit (c : Char) (ts : List Token) :
    needed (.lit c :: ts) = needed ts + 1 := by
  simp [needed]

@[simp] theorem needed_cls (negated : Bool) (items : List ClassItem) (ts : List Token) :
    needed (.cls negated items :: ts) = needed ts + 1 := by
  simp [needed]

/-- Reading a pattern that ends in `*` needs fewer characters than it has;
inside a class the class itself is the first of them. -/
theorem needed_tokenizeIn_star (mode : Mode) (p : List Char)
    (h : p.getLast? = some '*') :
    match mode with
    | .between => needed (tokenizeIn mode p) < p.length
    | .inClass _ _ => needed (tokenizeIn mode p) ≤ max 1 (p.length - 1) := by
  fun_induction tokenizeIn mode p
  case case1 => simp at h
  case case8 => simp at h
  case case4 ih | case6 ih | case9 ih =>
    -- two characters are read, so the `*` is not the first of them
    rcases tail_ends_with_star h with ⟨hnil, -⟩ | h₁
    · cases hnil
    rcases tail_ends_with_star h₁ with ⟨rfl, -⟩ | h₂
    · simp [tokenizeIn]
    · have := ih h₂
      simp at this ⊢
      omega
  case case11 ih =>
    rcases tail_ends_with_star h with ⟨hnil, -⟩ | h₁
    · cases hnil
    rcases tail_ends_with_star h₁ with ⟨hnil, -⟩ | h₂
    · cases hnil
    rcases tail_ends_with_star h₂ with ⟨rfl, -⟩ | h₃
    · simp [tokenizeIn]
    · have := ih h₃
      simp at this ⊢
      omega
  all_goals
    rename_i ih
    rcases tail_ends_with_star h with ⟨rfl, hc⟩ | h₁
    · first
      | contradiction
      | simp [tokenizeIn] at *
    · have hpos := pos_of_ends_with_star h₁
      have := ih h₁
      simp at this ⊢
      omega

/-- Inside a class the first token to come is that class. -/
theorem tokenizeIn_inClass (negated : Bool) (items : List ClassItem) (p : List Char) :
    ∃ items' ts, tokenizeIn (.inClass negated items) p = .cls negated items' :: ts := by
  generalize hmode : Mode.inClass negated items = mode
  fun_induction tokenizeIn mode p generalizing items <;> simp_all

/-- An opened class is one token, and what follows it needs fewer characters
than the text after the bracket has. -/
theorem tokenize_class_star {b : List Char} (hb : b ≠ []) :
    ∃ negated items ts, tokenize ('[' :: b ++ ['*']) = .cls negated items :: ts ∧
      needed ts < b.length := by
  obtain ⟨c, b, rfl⟩ := List.exists_cons_of_ne_nil hb
  by_cases hc : c = '^'
  · subst hc
    obtain ⟨items, ts, hts⟩ := tokenizeIn_inClass true [] (b ++ ['*'])
    have hneed := needed_tokenizeIn_star (.inClass true []) (b ++ ['*']) (by simp)
    refine ⟨true, items, ts, by simpa [tokenize, tokenizeIn] using hts, ?_⟩
    simp [hts] at hneed
    simp
    omega
  · obtain ⟨items, ts, hts⟩ := tokenizeIn_inClass false [] (c :: b ++ ['*'])
    have hneed := needed_tokenizeIn_star (.inClass false []) (c :: b ++ ['*'])
      (by simp [List.getLast?_cons])
    refine ⟨false, items, ts, ?_, ?_⟩
    · rw [← hts]
      unfold tokenize
      rw [List.cons_append, tokenizeIn]
      intro p hp
      exact hc (by simpa using congrArg List.head? hp)
    · simp only [hts, needed_cls] at hneed
      simp at hneed ⊢
      omega

/-- A token that takes the first character and needs little after it matches a
word too short to extend `m :: b`. -/
theorem exists_match_too_short {m : Char} {b s : List Char} {tok : Token} {ts : List Token}
    (htok : tok ≠ .star) (hs : matchTokens (tok :: ts) (m :: s) = true)
    (hneed : needed ts < b.length) :
    ∃ t, matchTokens (tok :: ts) t = true ∧ ¬ (m :: b) <+: t := by
  have hparts : tok.accepts m = true ∧ matchTokens ts s = true := by
    cases tok with
    | star => exact absurd rfl htok
    | any | cls | lit => simpa [matchTokens] using hs
  obtain ⟨t, ht, hlen⟩ := exists_short_match hparts.2
  refine ⟨m :: t, ?_, ?_⟩
  · cases tok with
    | star => exact absurd rfl htok
    | any | cls | lit => simpa [matchTokens, ht] using hparts.1
  · intro hpre
    have := hpre.length_le
    simp at this
    omega

/-- **A special character is never a literal prefix.**  If a pattern that
starts with a special character and ends in `*` matched exactly the extensions
of its own text without the `*`, it would also match a word that is none. -/
theorem special_star_not_prefix {m : Char} (hm : special m = true) (b : List Char) :
    ¬ ∀ t, matchTokens (tokenize (m :: b ++ ['*'])) t = true ↔ (m :: b) <+: t := by
  intro h
  have hself : matchTokens (tokenize (m :: b ++ ['*'])) (m :: b) = true :=
    (h _).mpr (List.prefix_refl _)
  simp only [special, Bool.or_eq_true, beq_iff_eq] at hm
  rcases hm with ((rfl | rfl) | rfl) | rfl
  · -- `*` also absorbs a foreign first character
    have hx := @matchTokens_star_cons (tokenize (b ++ ['*'])) _ hself 'x'
    have hpre := (h _).mp hx
    simp at hpre
  · -- `?` also accepts a foreign first character
    have hx : matchTokens (tokenize ('?' :: b ++ ['*'])) ('x' :: b) = true := by
      simpa [tokenize, tokenizeIn, matchTokens, Token.accepts] using hself
    have hpre := (h _).mp hx
    simp at hpre
  · -- `[` opens a class, which takes one character for several of the text
    cases b with
    | nil => exact absurd hself (by decide)
    | cons c b =>
        obtain ⟨negated, items, ts, hts, hneed⟩ :=
          tokenize_class_star (List.cons_ne_nil c b)
        rw [hts] at h hself
        obtain ⟨t, ht, hno⟩ := exists_match_too_short (by simp) hself hneed
        exact hno ((h t).mp ht)
  · -- `\` takes the next character with it
    cases b with
    | nil => exact absurd hself (by decide)
    | cons e b =>
        have hneed := needed_tokenizeIn_star .between (b ++ ['*']) (by simp)
        have hts : tokenize ('\\' :: (e :: b) ++ ['*']) =
            .lit e :: tokenize (b ++ ['*']) := by
          simp [tokenize, tokenizeIn]
        rw [hts] at h hself
        obtain ⟨t, ht, hno⟩ := exists_match_too_short (b := e :: b) (by simp) hself
          (by simpa [tokenize] using hneed)
        exact hno ((h t).mp ht)

/-- A nonempty pattern on any key: the empty key matches no pattern but the
empty one, every other key is matched by tokens. -/
theorem stringmatchlen_of_ne_nil {p : List Char} (hp : p ≠ []) (s : List Char) :
    stringmatchlen p s = true ↔ s ≠ [] ∧ matchTokens (tokenize p) s = true := by
  cases s with
  | nil => simp [stringmatchlen, hp]
  | cons c s => simp [stringmatchlen]

/-- Glob matching of a whole word, the empty one included. -/
def globMatch (pattern s : List Char) : Bool := matchTokens (tokenize pattern) s

/-- On every word but the empty one, the server's matcher is glob matching. -/
theorem stringmatchlen_eq_globMatch (p : List Char) {s : List Char} (hs : s ≠ []) :
    stringmatchlen p s = globMatch p s := by
  cases s with
  | nil => exact absurd rfl hs
  | cons c s => rfl

/-- A class that is opened takes a character, so it does not end a match. -/
theorem matchTokens_inClass_nil (negated : Bool) (items : List ClassItem) (p : List Char) :
    matchTokens (tokenizeIn (.inClass negated items) p) [] = false := by
  obtain ⟨items', ts, hts⟩ := tokenizeIn_inClass negated items p
  rw [hts, matchTokens]
  nofun

/-- The empty word is matched when the pattern is nothing but stars. -/
theorem globMatch_nil (p : List Char) : globMatch p [] = p.all (· == '*') := by
  unfold globMatch tokenize
  generalize hmode : Mode.between = mode
  fun_induction tokenizeIn mode p with
  | case1 => rfl
  | case2 p ih => simpa [matchTokens] using ih hmode
  | case4 | case5 => rw [matchTokens_inClass_nil]; rfl
  | case8 | case9 | case10 | case11 | case12 => cases hmode
  | case3 | case6 => rfl
  | case7 c p hstar =>
      have hne : (c == '*') = false := beq_false_of_ne hstar
      rw [List.all_cons, hne]
      rfl

/-- What a pattern selects behind a literal word: a nonempty rest by the
server's matcher, and the empty rest when the pattern is nothing but stars. -/
def selectsRest (pattern rest : List Char) : Bool :=
  if rest.isEmpty then pattern.all (· == '*') else stringmatchlen pattern rest

/-- That is glob matching of the rest. -/
theorem selectsRest_eq_globMatch (p s : List Char) : selectsRest p s = globMatch p s := by
  cases s with
  | nil => exact (globMatch_nil p).symm
  | cons c s => exact stringmatchlen_eq_globMatch p (List.cons_ne_nil c s)

/-- **Literal prefix.** A literal word before any pattern selects the keys
that extend the word by something the pattern matches. -/
theorem stringmatchlen_literal_append {w : List Char} (hw : ∀ c ∈ w, special c = false)
    (hne : w ≠ []) (p s : List Char) :
    stringmatchlen (w ++ p) s = true ↔ ∃ t, s = w ++ t ∧ globMatch p t = true := by
  rw [stringmatchlen_of_ne_nil (by simp [hne]), tokenize_append_literal hw,
    matchTokens_literal_append]
  refine and_iff_right_of_imp ?_
  rintro ⟨t, rfl, -⟩
  simp [hne]

/-- **Exact key.**  A literal pattern selects the key it spells. -/
theorem stringmatchlen_literal {w : List Char} (hw : ∀ c ∈ w, special c = false)
    (hne : w ≠ []) (s : List Char) : stringmatchlen w s = true ↔ s = w := by
  have htok := tokenize_append_literal hw []
  rw [List.append_nil] at htok
  rw [stringmatchlen_of_ne_nil hne, htok]
  simp only [tokenize, tokenizeIn, List.append_nil, matchTokens_literal]
  exact ⟨And.right, fun h => ⟨h ▸ hne, h⟩⟩

/-- **Prefix region.**  A literal word followed by `*` selects the keys that
extend it. -/
theorem stringmatchlen_literal_star {w : List Char} (hw : ∀ c ∈ w, special c = false)
    (hne : w ≠ []) (s : List Char) : stringmatchlen (w ++ ['*']) s = true ↔ w <+: s := by
  rw [stringmatchlen_of_ne_nil (by simp), tokenize_append_literal hw]
  simp only [tokenize, tokenizeIn, matchTokens_literal_star]
  refine ⟨And.right, fun h => ⟨?_, h⟩⟩
  rintro rfl
  exact hne (List.prefix_nil.mp h)

/-- A word whose literal part is followed by a special character does not
select its own extensions when `*` is appended. -/
theorem stringmatchlen_special_star {w : List Char} (hw : ∀ c ∈ w, special c = false)
    (hne : w ≠ []) {m : Char} (hm : special m = true) (b : List Char) :
    ¬ ∀ s, stringmatchlen (w ++ m :: b ++ ['*']) s = true ↔ (w ++ m :: b) <+: s := by
  intro h
  apply special_star_not_prefix hm b
  intro t
  have hkey := h (w ++ t)
  rw [stringmatchlen_of_ne_nil (by simp), List.append_assoc,
    tokenize_append_literal hw, matchTokens_literal_append,
    List.prefix_append_right_inj] at hkey
  have hnonempty : w ++ t ≠ [] := by simp [hne]
  simpa [hnonempty] using hkey

example : stringmatchlen "h[^e-a]\\*l*".toList "hx*lo".toList = true := by decide

end Glob
