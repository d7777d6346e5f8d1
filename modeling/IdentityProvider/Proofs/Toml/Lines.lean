import IdentityProvider.Proofs.Toml.Pieces

/-
  The lines of a document among its pieces.

  By themselves the pieces of a document are a cut of its text in which each is what it is by its
  own characters and by what follows it (`Parted`).  A line begins between two pieces or inside of a
  string (`Parted.line`), and between two pieces a number sign behind blanks opens a comment
  (`Parted.comment`).
-/

namespace IdentityProvider.Toml

open Text (isBlank)

/-- The text up to the rest is cut into these pieces. -/
inductive Parted : List Char → List Piece → List Char → Prop
  | done (rest : List Char) : Parted rest [] rest
  | piece (p : Piece) (text rest : List Char) (pieces : List Piece) :
    p.Before text → Parted text pieces rest → Parted (p.text ++ text) (p :: pieces) rest

theorem Parted.trans {first second third : List Char} {front back : List Piece}
    (h : Parted first front second) (h' : Parted second back third) :
    Parted first (front ++ back) third := by
  induction h with
  | done => exact h'
  | piece p text rest pieces hp _ ih => exact .piece p text third _ hp (ih h')

theorem Parted.eq_written {text rest : List Char} {pieces : List Piece}
    (h : Parted text pieces rest) : text = written pieces ++ rest := by
  induction h with
  | done => rfl
  | piece p text rest pieces _ _ ih => rw [written_cons, List.append_assoc, ← ih]

theorem parted_token {token : List Char} (h : IsToken token) (rest : List Char) :
    Parted (token ++ rest) [.token token] rest :=
  .piece (.token token) rest rest [] (.token token rest h) (.done rest)

/-- A sign that stands for itself. -/
theorem parted_sign {c : Char} (hblank : isBlank c = false) (hmark : c ≠ '#') (rest : List Char) :
    Parted (c :: rest) [.token [c]] rest := by
  have hline : c ≠ '\n' := by
    rintro rfl
    cases hblank
  exact parted_token ⟨⟨c, [], rfl, hblank, hmark⟩, by simpa using hline.symm⟩ rest

theorem Gap.parted {text rest : List Char} {pieces : List Piece} (h : Gap text pieces rest) :
    Parted text pieces rest := by
  induction h with
  | done rest _ => exact .done rest
  | blank c text rest pieces hc _ ih => exact .piece (.blank c) text rest pieces hc ih
  | comment words text rest pieces hcomment _ ih =>
    exact .piece (.comment words) text rest pieces hcomment ih

theorem parted_spaces (text : List Char) :
    Parted text (spaces text) (text.dropWhile isSpace) := by
  unfold spaces
  induction text with
  | nil => exact .done []
  | cons c text ih =>
    by_cases hc : isSpace c = true
    · rw [List.dropWhile_cons_of_pos hc, List.takeWhile_cons_of_pos hc]
      exact .piece (.blank c) text _ _ (.space c text hc) ih
    · rw [List.dropWhile_cons_of_neg hc, List.takeWhile_cons_of_neg hc]
      exact .done _

theorem Lists.parted_close {many one : Reading} {c : Char} (h : Lists many one c)
    (rest : List Char) : Parted (c :: rest) [.token [c]] rest := by
  cases h with
  | array room => exact parted_sign (by decide) (by decide) rest
  | table room => exact parted_sign (by decide) (by decide) rest

theorem parted_keyPath {fuel : Nat} {path : List String} {key rest : List Char}
    (h : keyPath? fuel (key ++ rest) = some (path, rest)) :
    Parted (key ++ rest) [.token key] rest := by
  obtain ⟨token, heq, htoken⟩ := isToken_of_keyPath? h
  rw [List.append_cancel_right heq]
  exact parted_token htoken rest

/-- What a reader takes is cut into pieces. -/
theorem Takes.parted {reading : Reading} {text rest : List Char} {pieces : List Piece}
    (h : Takes reading text pieces rest) : Parted text pieces rest := by
  induction h with
  | string room written value rest hvalue =>
    exact .piece (.string written) rest rest [] (.string written value rest hvalue) (.done rest)
  | bare room token rest value hvalue =>
    obtain ⟨front, heq, hfront⟩ := isToken_of_bareValue? hvalue
    rw [List.append_cancel_right heq]
    exact parted_token hfront rest
  | array room inside rest pieces _ ih =>
    exact (parted_sign (by decide) (by decide) inside).trans ih
  | table room inside rest pieces _ ih =>
    exact (parted_sign (by decide) (by decide) inside).trans ih
  | close many one c text rest gap hlists hgap => exact hgap.parted.trans (hlists.parted_close rest)
  | last many one c text start behind rest gap element gap' hlists hgap _ hgap' ih =>
    exact hgap.parted.trans (ih.trans (hgap'.parted.trans (hlists.parted_close rest)))
  | more many one c text start behind later rest gap element gap' pieces hlists hgap _ hgap' _ ih
    ih' =>
    have hcomma : Parted (',' :: later) [.token [',']] later :=
      parted_sign (by decide) (by decide) later
    exact hgap.parted.trans (ih.trans (hgap'.parted.trans (hcomma.trans ih')))
  | member room fuel path key behind sign start rest gap gap' value hpath hgap hgap' _ ih =>
    have hsign : Parted ('=' :: sign) [.token ['=']] sign :=
      parted_sign (by decide) (by decide) sign
    exact (parted_keyPath hpath).trans (hgap.parted.trans (hsign.trans (hgap'.parted.trans ih)))
  | itemHeader fuel path text key behind later gap pieces hkey hpath _ hgap _ ih =>
    have hopen : Parted ('[' :: '[' :: text) [.token ['[', '[']] text :=
      parted_token ⟨⟨'[', ['['], rfl, by decide, by decide⟩, by decide⟩ text
    have hclose : Parted (']' :: ']' :: behind) [.token [']', ']']] behind :=
      parted_token ⟨⟨']', [']'], rfl, by decide, by decide⟩, by decide⟩ behind
    rw [hkey] at hpath
    have hkeyParted := hkey ▸ parted_keyPath hpath
    exact hopen.trans ((parted_spaces text).trans
      (hkeyParted.trans (hclose.trans (hgap.parted.trans ih))))
  | header fuel path text key behind later gap pieces _ hkey hpath _ hgap _ ih =>
    have hclose : Parted (']' :: behind) [.token [']']] behind :=
      parted_sign (by decide) (by decide) behind
    rw [hkey] at hpath
    have hkeyParted := hkey ▸ parted_keyPath hpath
    exact (parted_sign (by decide) (by decide) text).trans ((parted_spaces text).trans
      (hkeyParted.trans (hclose.trans (hgap.parted.trans ih))))
  | assignment fuel path key sign behind later value gap pieces _ hpath _ _ hgap _ ih ih' =>
    have hsign : Parted ('=' :: sign) [.token ['=']] sign :=
      parted_sign (by decide) (by decide) sign
    exact (parted_keyPath hpath).trans (hsign.trans ((parted_spaces sign).trans
      (ih.trans (hgap.parted.trans ih'))))
  | noStatement => exact .done []
  | document text start gap pieces _ hgap _ ih => exact hgap.parted.trans ih
  | marked text start gap pieces hgap _ ih =>
    exact (parted_sign (by decide) (by decide) text).trans (hgap.parted.trans ih)

/-! ## Comments and lines -/

section

variable {pieces : List Piece}

/-- The first character of a piece: only blanks begin with a blank, and only comments with a number
sign. -/
theorem Piece.Before.first {p : Piece} {rest : List Char} (h : p.Before rest) :
    ∃ c more, p.text = c :: more ∧ (isBlank c = true → p = .blank c ∧ more = []) ∧
      (c = '#' → p = .comment more) := by
  cases h with
  | space c rest hc =>
    refine ⟨c, [], rfl, fun _ => ⟨rfl, rfl⟩, ?_⟩
    rintro rfl
    cases hc
  | lineFeed rest => exact ⟨'\n', [], rfl, fun _ => ⟨rfl, rfl⟩, fun h => absurd h (by decide)⟩
  | carriageReturn rest => exact ⟨'\r', [], rfl, fun _ => ⟨rfl, rfl⟩, fun h => absurd h (by decide)⟩
  | comment words rest _ _ => exact ⟨'#', words, rfl, fun h => absurd h (by decide), fun _ => rfl⟩
  | token token rest htoken =>
    obtain ⟨c, more, rfl, hblank, hmark⟩ := htoken.head
    refine ⟨c, more, rfl, fun h => ?_, fun h => absurd h hmark⟩
    rw [hblank] at h
    cases h
  | string written value rest hvalue =>
    obtain ⟨front, heq, hne, _⟩ := quoted?_front hvalue
    rw [← List.append_cancel_right heq] at hne
    obtain ⟨c, more, rfl⟩ := List.exists_cons_of_ne_nil hne
    refine ⟨c, more, rfl, ?_, ?_⟩
    · intro hc
      unfold quoted? at hvalue
      split at hvalue
      · next heq =>
        rw [(List.cons.inj heq).1] at hc
        cases hc
      · next heq =>
        rw [(List.cons.inj heq).1] at hc
        cases hc
      · cases hvalue
    · rintro rfl
      cases hvalue

theorem Parted.first {c : Char} {text : List Char} (h : Parted (c :: text) pieces []) :
    ∃ p more behind later, p.text = c :: more ∧ text = more ++ behind ∧ pieces = p :: later ∧
      p.Before behind ∧ Parted behind later [] := by
  generalize htext : c :: text = whole at h
  cases h with
  | done => cases htext
  | piece p behind rest later hp hlater =>
    obtain ⟨d, more, hfirst, _⟩ := hp.first
    rw [hfirst] at htext
    obtain ⟨rfl, rfl⟩ := List.cons.inj htext
    exact ⟨p, more, behind, later, hfirst, rfl, rfl, hp, hlater⟩

/-- Behind blanks a number sign opens a comment. -/
theorem Parted.comment {blanks text : List Char} (hblanks : ∀ c ∈ blanks, isBlank c = true)
    (h : Parted (blanks ++ '#' :: text) pieces []) : ∃ words behind later,
      pieces = blanks.map .blank ++ .comment words :: later ∧ text = words ++ behind ∧
        (Piece.comment words).Before behind ∧ Parted behind later [] := by
  induction blanks generalizing pieces with
  | nil =>
    obtain ⟨p, more, behind, later, hfirst, rfl, rfl, hp, hlater⟩ := h.first
    obtain ⟨d, more', hfirst', _, hmark⟩ := hp.first
    rw [hfirst] at hfirst'
    obtain ⟨rfl, rfl⟩ := List.cons.inj hfirst'
    obtain rfl := hmark rfl
    exact ⟨more, behind, later, rfl, rfl, hp, hlater⟩
  | cons c blanks ih =>
    rw [List.forall_mem_cons] at hblanks
    obtain ⟨p, more, behind, later, hfirst, heq, rfl, hp, hlater⟩ := h.first
    obtain ⟨d, more', hfirst', hblank, _⟩ := hp.first
    rw [hfirst] at hfirst'
    obtain ⟨rfl, rfl⟩ := List.cons.inj hfirst'
    obtain ⟨rfl, rfl⟩ := hblank hblanks.1
    obtain rfl : blanks ++ '#' :: text = behind := heq
    obtain ⟨words, behind, later, rfl, htext, hcomment, hbehind⟩ := ih hblanks.2 hlater
    exact ⟨words, behind, later, rfl, htext, hcomment, hbehind⟩

/-- A line feed is no part of a comment or a token. -/
theorem Piece.Before.lineFeed_cases {p : Piece} {rest front back : List Char} (h : p.Before rest)
    (htext : p.text = front ++ '\n' :: back) :
    (p = .blank '\n' ∧ front = [] ∧ back = []) ∨ p = .string (front ++ '\n' :: back) := by
  have hmem : '\n' ∈ p.text := htext ▸ List.mem_append_right front List.mem_cons_self
  have hsingle : ∀ c, [c] = front ++ '\n' :: back → c = '\n' ∧ front = [] ∧ back = [] := by
    intro c hc
    cases front with
    | nil =>
      obtain ⟨hc, hback⟩ := List.cons.inj hc
      exact ⟨hc, rfl, hback.symm⟩
    | cons d front => cases (List.append_ne_nil_of_right_ne_nil front
        (List.cons_ne_nil '\n' back)) (List.cons.inj hc).2.symm
  cases h with
  | space c rest hc =>
    obtain ⟨rfl, _⟩ := hsingle c htext
    cases hc
  | lineFeed rest => exact .inl ⟨rfl, (hsingle _ htext).2⟩
  | carriageReturn rest => cases (hsingle _ htext).1
  | comment words rest hcontrol _ =>
    rcases List.mem_cons.mp hmem with heq | hwords
    · cases heq
    · cases hcontrol _ hwords
  | string written value rest _ => exact .inr (congrArg Piece.string htext)
  | token token rest htoken => exact absurd hmem htoken.line

/-- A line begins behind this text: between two pieces, or inside of a string. -/
inductive LineBegins (pieces : List Piece) (front back : List Char) : Prop
  | between (above below : List Piece) :
    pieces = above ++ below → written above = front ++ ['\n'] → Parted back below [] →
    LineBegins pieces front back
  | inString (above below : List Piece) (u v : List Char) :
    pieces = above ++ .string (u ++ '\n' :: v) :: below → front = written above ++ u →
    LineBegins pieces front back

theorem LineBegins.cons {front back : List Char} (h : LineBegins pieces front back) (p : Piece) :
    LineBegins (p :: pieces) (p.text ++ front) back := by
  cases h with
  | between above below hpieces hwritten hbelow =>
    refine .between (p :: above) below (by rw [hpieces, List.cons_append]) ?_ hbelow
    rw [written_cons, hwritten, List.append_assoc]
  | inString above below u v hpieces hfront =>
    refine .inString (p :: above) below u v (by rw [hpieces, List.cons_append]) ?_
    rw [written_cons, hfront, List.append_assoc]

theorem Parted.line {front back : List Char} (h : Parted (front ++ '\n' :: back) pieces []) :
    LineBegins pieces front back := by
  generalize htext : front ++ '\n' :: back = text at h
  generalize hrest : [] = rest at h
  induction h generalizing front with
  | done rest =>
    subst hrest
    cases List.append_ne_nil_of_right_ne_nil front (List.cons_ne_nil '\n' back) htext
  | piece p text rest pieces hp hpieces ih =>
    subst hrest
    rcases List.append_eq_append_iff.mp htext with ⟨inner, hfront, hinner⟩ | ⟨more, rfl, hmore⟩
    · cases inner with
      | nil =>
        have hbegins := (@ih [] hinner rfl).cons p
        rwa [hfront, List.append_nil, List.append_nil] at hbegins
      | cons c inner =>
        obtain ⟨rfl, rfl⟩ := List.cons.inj hinner
        rcases hp.lineFeed_cases hfront with ⟨rfl, rfl, rfl⟩ | rfl
        · exact .between [.blank '\n'] pieces rfl rfl hpieces
        · exact .inString [] pieces front inner rfl rfl
    · exact (ih hmore.symm rfl).cons p

end

/-- At one place of a text there is one piece. -/
theorem piece_unique {above above' below below' : List Piece} {p p' : Piece}
    {u u' v v' : List Char} (h : above ++ p :: below = above' ++ p' :: below')
    (hp : p.text = u ++ v) (hp' : p'.text = u' ++ v') (hv : v ≠ []) (hv' : v' ≠ [])
    (hplace : written above ++ u = written above' ++ u') : p = p' := by
  have hlength := congrArg List.length hplace
  have hpv := List.length_pos_iff.mpr hv
  have hpv' := List.length_pos_iff.mpr hv'
  have hplen := congrArg List.length hp
  have hplen' := congrArg List.length hp'
  simp only [List.length_append] at hlength hplen hplen'
  rcases List.append_eq_append_iff.mp h with ⟨more, rfl, hmore⟩ | ⟨more, rfl, hmore⟩
  · cases more with
    | nil => exact (List.cons.inj hmore).1
    | cons q more =>
      obtain ⟨rfl, _⟩ := List.cons.inj hmore
      simp only [written_append, written_cons, List.length_append] at hlength
      omega
  · cases more with
    | nil => exact (List.cons.inj hmore).1.symm
    | cons q more =>
      obtain ⟨rfl, _⟩ := List.cons.inj hmore
      simp only [written_append, written_cons, List.length_append] at hlength
      omega

end IdentityProvider.Toml
