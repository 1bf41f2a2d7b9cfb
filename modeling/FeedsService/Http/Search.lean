import FeedsService.Http.Headers

/-!
# The search for a header field

What `find_header_value` makes of a header, line by line.  It finds the first
line that begins with the field, skips whole lines before it and stops at an
empty one; but a CR inside a line that it has to skip holds it for ever.
-/

namespace FeedsService.Http

open FeedsService.Library

variable {field text : Bytes}

/-- Header lines, each with its end. -/
def joined (lines : List Bytes) : Bytes :=
  lines.flatMap (· ++ crlf)

@[simp]
theorem joined_nil : joined [] = [] :=
  rfl

@[simp]
theorem joined_cons (line : Bytes) (lines : List Bytes) :
    joined (line :: lines) = line ++ crlf ++ joined lines :=
  rfl

/-- The search goes over the line to the next one. -/
structure Skipped (field line : Bytes) : Prop where
  nonempty : line ≠ []
  whole : cr ∉ line
  unnamed : ¬ Names field line

/-- A CR in the first line that is not the end of the line. -/
structure Holds (field text : Bytes) : Prop where
  unnamed : ¬ Names field text
  bare : ∃ line more, text = line ++ cr :: more ∧ cr ∉ line ∧ more.head? ≠ some lf

/-- No line of the text is left to be searched. -/
def Over (text : Bytes) : Prop :=
  text = [] ∨ crlf <+: text

instance (text : Bytes) : Decidable (Over text) :=
  inferInstanceAs (Decidable (_ ∨ _))

theorem headerPass_text (hfield : IsName field) (htext : 0 ∉ text) (junk : Bytes) :
    headerPass field (text ++ 0 :: junk) =
      .ok (if Over text then .leave none
        else if Names field text then
          .leave (some (blankless (text.drop (field.length + 1)) ++ 0 :: junk))
        else .goOn (afterLine text ++ 0 :: junk)) := by
  have hcrlf : (0 : UInt8) ∉ crlf := by decide
  obtain ⟨chr, hchr, hzero⟩ : ∃ chr, byteAt (text ++ 0 :: junk) 0 = .ok chr ∧
      (chr = 0 ↔ text = []) := by
    cases text with
    | nil => exact ⟨0, rfl, by simp⟩
    | cons chr text =>
        refine ⟨chr, rfl, ?_⟩
        have hne : chr ≠ 0 := fun heq => htext (heq ▸ List.mem_cons_self)
        simp [hne]
  have hblank : memEqual (text ++ 0 :: junk) crlf 2 = .ok (decide (crlf <+: text)) :=
    memEqual_text hcrlf text junk
  have hstop : chr = 0 ∨ decide (crlf <+: text) = true ↔ Over text := by
    rw [hzero, decide_eq_true_iff]
    rfl
  rw [headerPass, hchr, ok_bind, hblank, ok_bind]
  by_cases hover : Over text
  · rw [if_pos (hstop.mpr hover), if_pos hover]
    rfl
  · rw [if_neg (mt hstop.mp hover), if_neg hover, isField_text hfield, ok_bind]
    by_cases hnames : Names field text
    · rw [if_pos (decide_eq_true hnames), if_pos hnames, drop_text hnames.length]
      have hvalue : 0 ∉ text.drop (field.length + 1) := fun h => htext (List.mem_of_mem_drop h)
      dsimp only
      rw [strspn_text hvalue, ok_bind, drop_span]
      rfl
    · rw [if_neg (by simpa using hnames), if_neg hnames, strcspn_text htext, ok_bind]
      have hended := memEqual_text hcrlf (text.dropWhile fun chr => !([cr].contains chr)) junk
      rw [drop_span, show (2 : ℕ) = crlf.length from rfl, hended, ok_bind, ← List.drop_drop,
        drop_span, afterLine]
      by_cases hcut : crlf <+: text.dropWhile fun chr => !([cr].contains chr)
      · rw [if_pos (decide_eq_true hcut), if_pos hcut, drop_text hcut.length_le]
        rfl
      · rw [if_neg (by simpa using hcut), if_neg hcut]
        rfl

/-- A pass that goes on has moved the pointer or changed nothing. -/
theorem headerPass_lowers {str next : Bytes} (hpass : headerPass field str = .ok (.goOn next)) :
    next = str ∨ next.length < str.length := by
  obtain ⟨count, rfl⟩ : ∃ count, next = str.drop count := by
    obtain ⟨chr, -, hpass⟩ := bind_eq_ok.mp hpass
    obtain ⟨blank, -, hpass⟩ := bind_eq_ok.mp hpass
    split at hpass
    · cases hpass
    · obtain ⟨named, -, hpass⟩ := bind_eq_ok.mp hpass
      split at hpass
      · obtain ⟨blanks, -, hpass⟩ := bind_eq_ok.mp hpass
        cases hpass
      · obtain ⟨line, -, hpass⟩ := bind_eq_ok.mp hpass
        obtain ⟨ended, -, hpass⟩ := bind_eq_ok.mp hpass
        cases hpass
        exact ⟨_, rfl⟩
  rw [List.length_drop]
  by_cases hmoved : count = 0 ∨ str = []
  · left
    obtain rfl | rfl := hmoved <;> simp
  · right
    rw [not_or] at hmoved
    have := List.length_pos_iff.mpr hmoved.2
    omega

/-- The search, up to the end of the string. -/
abbrev Finds (field text junk : Bytes) (value : Option Bytes) : Prop :=
  Ends (headerPass field) (text ++ 0 :: junk) (.ok value)

theorem findHeaderValue_eq_some {str : Bytes} {result : Except Fault (Option Bytes)} :
    findHeaderValue str field = some result ↔ Ends (headerPass field) str result :=
  iterate_of_measure List.length (fun _ _ => headerPass_lowers) (Nat.lt_succ_self _)

section Lines

variable {line : Bytes} {lines : List Bytes}

/-- A pattern does not reach over a byte that is not in it. -/
theorem prefix_cut_iff {pattern before after : Bytes} {chr : UInt8} (hchr : chr ∉ pattern) :
    pattern <+: before ++ chr :: after ↔ pattern <+: before := by
  constructor
  · intro hstarts
    obtain hshort | hlong := Nat.le_total pattern.length before.length
    · exact List.prefix_of_prefix_length_le hstarts (List.prefix_append _ _) hshort
    · obtain ⟨tail, rfl⟩ := List.prefix_of_prefix_length_le (List.prefix_append _ _) hstarts hlong
      cases tail with
      | nil => simp
      | cons other tail =>
          rw [List.prefix_append_right_inj, List.cons_prefix_cons] at hstarts
          rw [hstarts.1] at hchr
          exact absurd (by simp) hchr
  · exact fun hstarts => hstarts.trans (List.prefix_append _ _)

theorem names_append_iff (hfield : IsName field) (line more : Bytes) :
    Names field (line ++ cr :: more) ↔ Names field line := by
  have hcr : tolower cr ∉ (field ++ [colon]).map tolower := by
    intro hmem
    obtain ⟨chr, hchr, heq⟩ := List.mem_map.mp hmem
    have hself : chr = cr := (tolower_eq_iff chr (by decide)).mp (heq.trans (by decide))
    rw [hself, List.mem_append] at hchr
    exact hchr.elim hfield.cr (by decide)
  have hmap : (line ++ cr :: more).map tolower =
      line.map tolower ++ tolower cr :: more.map tolower := by
    rw [List.map_append, List.map_cons]
  rw [Names, Names, hmap, prefix_cut_iff hcr]

theorem dropWhile_line (hwhole : cr ∉ line) (more : Bytes) :
    (line ++ cr :: more).dropWhile (fun chr => !([cr].contains chr)) = cr :: more := by
  rw [List.dropWhile_append_of_pos]
  · simp
  · intro chr hchr
    have hne : chr ≠ cr := fun heq => hwhole (heq ▸ hchr)
    simp [hne]

theorem not_over_of_skipped (hskipped : Skipped field line) (more : Bytes) :
    ¬ Over (line ++ more) := by
  obtain ⟨chr, rest, rfl⟩ := List.exists_cons_of_ne_nil hskipped.nonempty
  have hne : chr ≠ cr := fun heq => hskipped.whole (heq ▸ List.mem_cons_self)
  rintro (hnil | hcrlf)
  · cases hnil
  · rw [List.cons_append, crlf, List.cons_prefix_cons] at hcrlf
    exact hne hcrlf.1.symm

theorem Names.not_over (hfield : IsName field) (hnames : Names field text) : ¬ Over text := by
  rintro (rfl | ⟨more, rfl⟩)
  · have := hnames.length
    simp at this
  · have hnil : Names field ([] ++ cr :: lf :: more) := hnames
    have := ((names_append_iff hfield [] (lf :: more)).mp hnil).length
    simp at this

theorem afterLine_line (hwhole : cr ∉ line) (more : Bytes) :
    afterLine (line ++ crlf ++ more) = more := by
  have hline : line ++ crlf ++ more = line ++ cr :: lf :: more := by simp [crlf]
  rw [afterLine, hline, dropWhile_line hwhole, if_pos ⟨more, rfl⟩]
  rfl

/-- The search goes over a line to the next one. -/
theorem finds_line_iff (hfield : IsName field) (hskipped : Skipped field line)
    (hline : 0 ∉ line) (htext : 0 ∉ text) (junk : Bytes)
    {result : Except Fault (Option Bytes)} :
    Ends (headerPass field) (line ++ crlf ++ text ++ 0 :: junk) result ↔
      Ends (headerPass field) (text ++ 0 :: junk) result := by
  have hcrlf : (0 : UInt8) ∉ crlf := by decide
  have hzero : 0 ∉ line ++ crlf ++ text := by simp [hline, htext, hcrlf]
  have hover : ¬ Over (line ++ crlf ++ text) := by
    rw [List.append_assoc]
    exact not_over_of_skipped hskipped _
  have hunnamed : ¬ Names field (line ++ crlf ++ text) := by
    rw [List.append_assoc]
    exact mt (names_append_iff hfield line (lf :: text)).mp hskipped.unnamed
  have hpass := headerPass_text hfield hzero junk
  rw [if_neg hover, if_neg hunnamed, afterLine_line hskipped.whole] at hpass
  exact ends_goOn_iff hpass

theorem finds_joined_iff (hfield : IsName field) (hskipped : ∀ line ∈ lines, Skipped field line)
    (hzero : 0 ∉ joined lines ++ text) (junk : Bytes) {result : Except Fault (Option Bytes)} :
    Ends (headerPass field) (joined lines ++ text ++ 0 :: junk) result ↔
      Ends (headerPass field) (text ++ 0 :: junk) result := by
  induction lines with
  | nil => exact Iff.rfl
  | cons line lines ih =>
      rw [joined_cons, List.append_assoc] at hzero
      simp only [List.mem_append, not_or] at hzero
      have hrest : 0 ∉ joined lines ++ text := by simp [hzero.2]
      rw [joined_cons, List.append_assoc (line ++ crlf),
        finds_line_iff hfield (hskipped line List.mem_cons_self) hzero.1.1 hrest,
        ih (fun other h => hskipped other (List.mem_cons_of_mem line h)) hrest]

end Lines

section Verdict

variable (hfield : IsName field) (htext : 0 ∉ text)

include hfield htext

theorem finds_of_over (hover : Over text) (junk : Bytes) : Finds field text junk none := by
  have hpass := headerPass_text hfield htext junk
  rw [if_pos hover] at hpass
  exact ends_leave hpass

theorem finds_of_names (hnames : Names field text) (junk : Bytes) :
    Finds field text junk (some (blankless (text.drop (field.length + 1)) ++ 0 :: junk)) := by
  have hpass := headerPass_text hfield htext junk
  rw [if_neg (hnames.not_over hfield), if_pos hnames] at hpass
  exact ends_leave hpass

theorem finds_of_last (hwhole : cr ∉ text) (hunnamed : ¬ Names field text) (junk : Bytes) :
    Finds field text junk none := by
  by_cases hover : Over text
  · exact finds_of_over hfield htext hover junk
  · have hnil : afterLine text = [] := by
      have hall : text.dropWhile (fun chr => !([cr].contains chr)) = [] := by
        rw [List.dropWhile_eq_nil_iff]
        intro chr hchr
        have hne : chr ≠ cr := fun heq => hwhole (heq ▸ hchr)
        simp [hne]
      rw [afterLine, hall]
      rfl
    have hpass := headerPass_text hfield htext junk
    rw [if_neg hover, if_neg hunnamed, hnil] at hpass
    have hempty : (0 : UInt8) ∉ ([] : Bytes) := List.not_mem_nil
    exact (ends_goOn_iff hpass).mpr (finds_of_over hfield hempty (Or.inl rfl) junk)

/-- From the CR on every pass is the same. -/
theorem not_ends_of_holds (hholds : Holds field text) (junk : Bytes)
    (result : Except Fault (Option Bytes)) :
    ¬ Ends (headerPass field) (text ++ 0 :: junk) result := by
  obtain ⟨line, more, rfl, hwhole, hbare⟩ := hholds.bare
  have hnot : ∀ before, ¬ crlf <+: before ++ cr :: more ∨ before ≠ [] := by
    intro before
    by_cases hbefore : before = []
    · left
      rw [hbefore, List.nil_append, crlf, List.cons_prefix_cons]
      rintro ⟨-, rest, hrest⟩
      exact hbare (hrest ▸ rfl)
    · exact Or.inr hbefore
  have hover : ∀ before, cr ∉ before → ¬ Over (before ++ cr :: more) := by
    intro before hbefore hover
    obtain hnil | hcut := hover
    · simp at hnil
    · obtain hcrlf | hne := hnot before
      · exact hcrlf hcut
      · obtain ⟨chr, rest, rfl⟩ := List.exists_cons_of_ne_nil hne
        rw [List.cons_append, crlf, List.cons_prefix_cons] at hcut
        exact hbefore (hcut.1 ▸ List.mem_cons_self)
  have hafter : ∀ before, cr ∉ before → afterLine (before ++ cr :: more) = cr :: more := by
    intro before hbefore
    rw [afterLine, dropWhile_line hbefore]
    exact if_neg ((hnot []).resolve_right (fun h => h rfl))
  have hnil : cr ∉ ([] : Bytes) := List.not_mem_nil
  have hunnamed : ¬ Names field ([] ++ cr :: more) := by
    intro hnames
    have := ((names_append_iff hfield [] more).mp hnames).length
    simp at this
  have hzero : 0 ∉ [] ++ cr :: more := by
    intro hmem
    exact htext (List.mem_append_right line hmem)
  have hstuck := headerPass_text hfield hzero junk
  rw [if_neg (hover [] hnil), if_neg hunnamed, hafter [] hnil] at hstuck
  have hpass := headerPass_text hfield htext junk
  rw [if_neg (hover line hwhole), if_neg hholds.unnamed, hafter line hwhole] at hpass
  rw [ends_goOn_iff hpass]
  exact not_ends_of_stuck hstuck result

end Verdict

/-- A text is lines that the search goes over and a line at which it stops. -/
theorem exists_lines (field text : Bytes) :
    ∃ lines rest, text = joined lines ++ rest ∧ (∀ line ∈ lines, Skipped field line) ∧
      (Over rest ∨ Names field rest ∨ Holds field rest ∨ cr ∉ rest ∧ ¬ Names field rest) := by
  have hnone : ∀ line ∈ ([] : List Bytes), Skipped field line := fun _ h => nomatch h
  induction hlength : text.length using Nat.strong_induction_on generalizing text with
  | _ length ih =>
      by_cases hover : Over text
      · exact ⟨[], text, rfl, hnone, Or.inl hover⟩
      by_cases hnames : Names field text
      · exact ⟨[], text, rfl, hnone, Or.inr (Or.inl hnames)⟩
      by_cases hcr : cr ∈ text
      · obtain ⟨line, more, rfl, hwhole⟩ := List.eq_append_cons_of_mem hcr
        by_cases hended : more.head? = some lf
        · obtain ⟨more, rfl⟩ := List.head?_eq_some_iff.mp hended
          have hne : line ≠ [] := by
            rintro rfl
            exact hover (Or.inr ⟨more, rfl⟩)
          have hshort : more.length < length := by
            rw [← hlength, List.length_append, List.length_cons, List.length_cons]
            omega
          obtain ⟨lines, rest, rfl, hskipped, hrest⟩ := ih more.length hshort more rfl
          have hunnamed : ¬ Names field line := fun h => hnames (h.trans (by simp))
          refine ⟨line :: lines, rest, by simp [crlf], ?_, hrest⟩
          exact List.forall_mem_cons.mpr ⟨⟨hne, hwhole, hunnamed⟩, hskipped⟩
        · exact ⟨[], _, rfl, hnone,
            Or.inr (Or.inr (Or.inl ⟨hnames, line, more, rfl, hwhole, hended⟩))⟩
      · exact ⟨[], text, rfl, hnone, Or.inr (Or.inr (Or.inr ⟨hcr, hnames⟩))⟩

/-- What the search makes of the line at which it stops. -/
inductive Verdict (field rest junk : Bytes) : Option (Except Fault (Option Bytes)) → Prop
  | missing (hnone : Over rest ∨ cr ∉ rest ∧ ¬ Names field rest) :
      Verdict field rest junk (some (.ok none))
  | found (hnames : Names field rest) :
      Verdict field rest junk
        (some (.ok (some (blankless (rest.drop (field.length + 1)) ++ 0 :: junk))))
  | endless (hholds : Holds field rest) : Verdict field rest junk none

/-- The search reads nothing behind the NUL; it finds the first line with the name,
or none before the header is over, or does not return. -/
theorem findHeaderValue_verdict (hfield : IsName field) (htext : 0 ∉ text) (junk : Bytes) :
    ∃ lines rest, text = joined lines ++ rest ∧ (∀ line ∈ lines, Skipped field line) ∧
      Verdict field rest junk (findHeaderValue (text ++ 0 :: junk) field) := by
  obtain ⟨lines, rest, rfl, hskipped, hrest⟩ := exists_lines field text
  refine ⟨lines, rest, rfl, hskipped, ?_⟩
  have hzero : 0 ∉ rest := fun h => htext (List.mem_append_right _ h)
  have hresult : ∀ value, Finds field rest junk value →
      findHeaderValue (joined lines ++ rest ++ 0 :: junk) field = some (.ok value) := by
    intro value hfinds
    exact findHeaderValue_eq_some.mpr ((finds_joined_iff hfield hskipped htext junk).mpr hfinds)
  obtain hover | hnames | hholds | ⟨hwhole, hunnamed⟩ := hrest
  · rw [hresult none (finds_of_over hfield hzero hover junk)]
    exact .missing (Or.inl hover)
  · rw [hresult _ (finds_of_names hfield hzero hnames junk)]
    exact .found hnames
  · have hnone : findHeaderValue (joined lines ++ rest ++ 0 :: junk) field = none := by
      rw [Option.eq_none_iff_forall_ne_some]
      intro result hsome
      rw [findHeaderValue_eq_some, finds_joined_iff hfield hskipped htext] at hsome
      exact not_ends_of_holds hfield hzero hholds junk result hsome
    rw [hnone]
    exact .endless hholds
  · rw [hresult none (finds_of_last hfield hzero hwhole hunnamed junk)]
    exact .missing (Or.inr ⟨hwhole, hunnamed⟩)

/-- The search does not return exactly when a CR stands inside a line that it has to
skip. -/
theorem findHeaderValue_eq_none_iff (hfield : IsName field) (htext : 0 ∉ text) (junk : Bytes) :
    findHeaderValue (text ++ 0 :: junk) field = none ↔
      ∃ lines rest, text = joined lines ++ rest ∧ (∀ line ∈ lines, Skipped field line) ∧
        Holds field rest := by
  constructor
  · intro hnone
    obtain ⟨lines, rest, heq, hskipped, hverdict⟩ := findHeaderValue_verdict hfield htext junk
    rw [hnone] at hverdict
    cases hverdict with
    | endless hholds => exact ⟨lines, rest, heq, hskipped, hholds⟩
  · rintro ⟨lines, rest, rfl, hskipped, hholds⟩
    have hzero : 0 ∉ rest := fun h => htext (List.mem_append_right _ h)
    rw [Option.eq_none_iff_forall_ne_some]
    intro result hsome
    rw [findHeaderValue_eq_some, finds_joined_iff hfield hskipped htext] at hsome
    exact not_ends_of_holds hfield hzero hholds junk result hsome

/-- A header of one line with a CR in it. -/
theorem findHeaderValue_bare_cr :
    findHeaderValue (bytesOf "A" ++ cr :: bytesOf "B" ++ crlf ++ crlf ++ 0 :: [])
      (bytesOf "Content-Length") = none := by
  refine (findHeaderValue_eq_none_iff ⟨by decide, by decide⟩ (by decide) []).mpr
    ⟨[], bytesOf "A" ++ cr :: bytesOf "B" ++ crlf ++ crlf, rfl, List.forall_mem_nil _, ?_⟩
  exact ⟨by decide, bytesOf "A", bytesOf "B" ++ crlf ++ crlf, by decide, by decide, by decide⟩

end FeedsService.Http
