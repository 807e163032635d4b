import Delegations.Name.Uri
import Delegations.Proofs.Text.WhiteSpace

/-!
Names with a query or a fragment behind them. Main statement: what is cut off does not count, and
neither does the cut unless white space stands in front of it, which is then at no end of the text
and so becomes part of the last segment (`ofUri_cut`).
-/
namespace Delegations.Name

open Text (IsBlank isWhiteSpace trim trimStart)

variable {before text blank : List Char} {mark c : Char}

def Cuts (mark : Char) : Prop := mark = '?' ∨ mark = '#'

def Whole (text : List Char) : Prop := ∀ c ∈ text, ¬Cuts c

instance : DecidablePred Cuts := fun _ => instDecidableOr

instance : DecidablePred Whole := fun text => List.decidableBAll (¬Cuts ·) text

theorem Cuts.solid (cuts : Cuts mark) : isWhiteSpace mark = false := by
  rcases cuts with rfl | rfl <;> decide

theorem cuts_iff : Cuts c ↔ (c != '?' && c != '#') = false := by
  simp [Cuts, or_iff_not_imp_left]

theorem Whole.uncut (whole : Whole text) (mem : c ∈ text) : (c != '?' && c != '#') = true := by
  have plain := whole c mem
  rwa [cuts_iff, Bool.not_eq_false] at plain

def ofPieces (pieces : List (List Char)) : Except TlvError Name := do
  return ⟨← (pieces.filter (· ≠ [])).mapM Component.ofUri⟩

theorem ofUri_of_whole (whole : Whole text) :
    ofUri text = ofPieces ((dropScheme (trim text)).splitOn '/') := by
  have kept : ∀ c ∈ trim text, (c != '?' && c != '#') = true := by
    intro c mem
    exact whole.uncut (Text.mem_of_mem_trim mem)
  rw [ofUri, segments, List.takeWhile_eq_self_iff.mpr kept]
  rfl

theorem ofUri_mark (whole : Whole text) (cuts : Cuts mark) (rest : List Char) :
    ofUri (text ++ mark :: rest) = ofPieces ((dropScheme (trimStart text)).splitOn '/') := by
  have kept : ∀ c ∈ trimStart text, (c != '?' && c != '#') = true := by
    intro c mem
    exact whole.uncut ((List.dropWhile_sublist _).mem mem)
  have stop := cuts_iff.mp cuts
  rw [ofUri, segments, Text.trim_append_cons cuts.solid, List.takeWhile_append_of_pos kept,
    List.takeWhile_cons_of_neg (by simp [stop]), List.append_nil]
  rfl

def scheme : List Char := ['n', 'd', 'n', ':']

/-- No letter of the scheme is white space, which therefore completes none. -/
theorem scheme_prefix_of_append (white : IsBlank blank) (starts : scheme <+: text ++ blank) :
    scheme <+: text := by
  have solid : ∀ c ∈ scheme, isWhiteSpace c = false := by
    simp [scheme]
    decide
  obtain ⟨rest, same⟩ := starts
  rcases List.append_eq_append_iff.mp same with ⟨later, whole, _⟩ | ⟨inside, parts, blanks⟩
  · exact ⟨later, whole.symm⟩
  · cases inside with
    | nil => exact ⟨[], by rw [parts, List.append_nil, List.append_nil]⟩
    | cons c inside =>
      have isWhite := white c (by simp [blanks])
      rw [solid c (by simp [parts])] at isWhite
      cases isWhite

theorem dropScheme_of_unschemed (unschemed : ¬scheme <+: text) : dropScheme text = text := by
  unfold dropScheme
  split
  · rename_i rest
    exact absurd ⟨rest, rfl⟩ unschemed
  · rfl

theorem dropScheme_append (white : IsBlank blank) (text : List Char) :
    dropScheme (text ++ blank) = dropScheme text ++ blank := by
  by_cases schemed : scheme <+: text
  · obtain ⟨rest, rfl⟩ := schemed
    rfl
  · have unschemed := mt (scheme_prefix_of_append white) schemed
    rw [dropScheme_of_unschemed schemed, dropScheme_of_unschemed unschemed]

theorem splitOn_append (whole : '/' ∉ blank) (text : List Char) :
    ∃ pieces last, text.splitOn '/' = pieces ++ [last] ∧
      (text ++ blank).splitOn '/' = pieces ++ [last ++ blank] := by
  induction text with
  | nil => exact ⟨[], [], rfl, List.splitOn_eq_singleton whole⟩
  | cons c rest ih =>
    obtain ⟨pieces, last, split, longer⟩ := ih
    rw [List.cons_append, List.splitOn_cons_eq_if_modifyHead, List.splitOn_cons_eq_if_modifyHead,
      split, longer]
    split
    · exact ⟨[] :: pieces, last, rfl, rfl⟩
    · cases pieces with
      | nil => exact ⟨[], c :: last, rfl, rfl⟩
      | cons first others => exact ⟨(c :: first) :: others, last, rfl, rfl⟩

theorem trimStart_eq_trim_append (solid : isWhiteSpace c = false) (white : IsBlank blank)
    (before : List Char) :
    trimStart (before ++ c :: blank) = trim (before ++ c :: blank) ++ blank := by
  have nothing : Text.trimEnd blank = [] := Text.trimEnd_append_right white []
  rw [Text.trimStart_append_cons solid, Text.trim_append_cons solid, nothing, List.append_assoc]
  rfl

theorem ofUri_mark_of_blank (solid : isWhiteSpace c = false) (white : IsBlank blank)
    (whole : Whole (before ++ c :: blank)) (cuts : Cuts mark) (rest : List Char) :
    ∃ pieces last, (dropScheme (trim (before ++ c :: blank))).splitOn '/' = pieces ++ [last] ∧
      ofUri (before ++ c :: blank) = ofPieces (pieces ++ [last]) ∧
      ofUri (before ++ c :: blank ++ mark :: rest) = ofPieces (pieces ++ [last ++ blank]) := by
  have noSlash : '/' ∉ blank := by
    intro mem
    exact absurd (white '/' mem) (by decide)
  obtain ⟨pieces, last, split, longer⟩ :=
    splitOn_append noSlash (dropScheme (trim (before ++ c :: blank)))
  refine ⟨pieces, last, split, ?_, ?_⟩
  · rw [ofUri_of_whole whole, split]
  · rw [ofUri_mark whole cuts, trimStart_eq_trim_append solid white, dropScheme_append white, longer]

theorem ofUri_mark_of_isBlank (white : IsBlank text) (whole : Whole text) (cuts : Cuts mark)
    (rest : List Char) : ofUri (text ++ mark :: rest) = ofUri text := by
  rw [ofUri_mark whole cuts, ofUri_of_whole whole, Text.trimStart_of_isBlank white,
    Text.trim_of_isBlank white]

theorem ofUri_mark_of_solid (solid : ∀ c ∈ text.getLast?, isWhiteSpace c = false)
    (whole : Whole text) (cuts : Cuts mark) (rest : List Char) :
    ofUri (text ++ mark :: rest) = ofUri text := by
  rcases List.eq_nil_or_concat text with rfl | ⟨before, c, rfl⟩
  · exact ofUri_mark_of_isBlank (by decide) whole cuts rest
  · rw [List.concat_eq_append] at solid whole ⊢
    obtain ⟨pieces, last, _, plain, cut⟩ :=
      ofUri_mark_of_blank (solid c (by simp)) (List.forall_mem_nil _) whole cuts rest
    rw [plain, cut, List.append_nil]

/-- Which mark cuts a text, and what is cut off, does not matter. A text is read as the part in front
of the cut is by itself if that part does not end in white space, or if nothing else is in it. Other
white space in front of the cut stands in the last segment and may be all of it. -/
theorem ofUri_cut (text rest : List Char) (mark : Char) (whole : Whole text) (cuts : Cuts mark) :
    (∀ other behind, Cuts other → ofUri (text ++ other :: behind) = ofUri (text ++ mark :: rest)) ∧
    ((∀ c ∈ text.getLast?, isWhiteSpace c = false) → ofUri (text ++ mark :: rest) = ofUri text) ∧
    (IsBlank text → ofUri (text ++ mark :: rest) = ofUri text) ∧
    ∀ before c blank, text = before ++ c :: blank → isWhiteSpace c = false → IsBlank blank →
      ∃ pieces last, (dropScheme (trim text)).splitOn '/' = pieces ++ [last] ∧
        ofUri text = ofPieces (pieces ++ [last]) ∧
        ofUri (text ++ mark :: rest) = ofPieces (pieces ++ [last ++ blank]) := by
  refine ⟨?_, ?_, ?_, ?_⟩
  · intro other behind cutsOther
    rw [ofUri_mark whole cutsOther, ofUri_mark whole cuts]
  · intro solid
    exact ofUri_mark_of_solid solid whole cuts rest
  · intro white
    exact ofUri_mark_of_isBlank white whole cuts rest
  · rintro before c blank rfl solid white
    exact ofUri_mark_of_blank solid white whole cuts rest

theorem ofUri_cut_fragment :
    ofUri (" ndn:/a".toList ++ '?' :: "b#c".toList) = ofUri " ndn:/a".toList ∧
      ofUri ("ndn:/a/ ".toList ++ '#' :: []) = ofPieces [[], ['a'], [' ']] := by
  have whole : Whole " ndn:/a".toList ∧ Whole "ndn:/a/ ".toList := by decide
  obtain ⟨_, solid, _, _⟩ := ofUri_cut " ndn:/a".toList "b#c".toList '?' whole.1 (.inl rfl)
  obtain ⟨_, _, _, blank⟩ := ofUri_cut "ndn:/a/ ".toList [] '#' whole.2 (.inr rfl)
  obtain ⟨pieces, last, split, _, cut⟩ :=
    blank "ndn:/a".toList '/' [' '] (by decide) (by decide) (by decide)
  have parts : [[], ['a']] ++ [[]] = pieces ++ [last] := by
    rw [← split]
    decide
  obtain ⟨rfl, same⟩ := List.append_inj' parts rfl
  obtain rfl := List.singleton_inj.mp same
  refine ⟨solid ?_, cut⟩
  rintro c ⟨⟩
  decide

/-- The space in front of the cut is taken for a part of the name, although it is none in the same
text without a query. -/
theorem ofUri_blank_before_cut : Whole "/a ".toList ∧
    ofUri "/a ".toList = .ok ⟨[.generic [97]]⟩ ∧
    ofUri ("/a ".toList ++ '?' :: "x".toList) = .ok ⟨[.generic [97, 32]]⟩ := by
  refine ⟨by decide, ?_, ?_⟩
  · cbv
  · cbv

end Delegations.Name
