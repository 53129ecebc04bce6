import Anettrace.Library.JsonRoundTrip
import Anettrace.Library.Substrings

/-!
# The report in its page

`write_report` and `validate_report` of `skills/anettrace-analysis/scripts/network_report.py`. The
report is written as a JSON text, and once more inside a script element of a page, without
characters that mean something in HTML. The check of a report takes that text out of the page and
compares the two.
-/

namespace Anettrace.NetworkReport

open Library.Json Library.Substrings

/-! ## The code -/

/-- `text.replace(char, new)` for a single character. -/
def replaceChar (char : Char) (new text : List Char) : List Char :=
  text.flatMap fun each => if each = char then new else [each]

/-- U+2028 -/
def lineSeparator : Char := Char.ofNat 0x2028

/-- U+2029 -/
def paragraphSeparator : Char := Char.ofNat 0x2029

/-- `embedded` -/
def embed (payload : List Char) : List Char :=
  replaceChar paragraphSeparator ['\\', 'u', '2', '0', '2', '9']
    (replaceChar lineSeparator ['\\', 'u', '2', '0', '2', '8']
      (replaceChar '>' ['\\', 'u', '0', '0', '3', 'e']
        (replaceChar '<' ['\\', 'u', '0', '0', '3', 'c']
          (replaceChar '&' ['\\', 'u', '0', '0', '2', '6'] payload))))

/-- `/*REPORT_DATA*/null` -/
def placeholder : List Char := "/*REPORT_DATA*/null".toList

/-- `<script id="report-data" type="application/json">` -/
def marker : List Char := "<script id=\"report-data\" type=\"application/json\">".toList

/-- `</script>` -/
def scriptEnd : List Char := "</script>".toList

/-- The text of `report.html` among the assets: the placeholder is the content of the element that
the marker opens, and neither stands anywhere else in front of it or, the placeholder, behind it. -/
structure Template where
  before : List Char
  after : List Char
  marker_once : ¬ marker <:+: before
  placeholder_before : ¬ placeholder <:+: before ++ marker
  placeholder_after : ¬ placeholder <:+: scriptEnd ++ after
  returns_before : '\r' ∉ before
  returns_after : '\r' ∉ after

instance : Inhabited Template :=
  ⟨⟨[], [], by decide, by decide, by decide, by decide, by decide⟩⟩

/-- The text of a template. -/
def Template.text (template : Template) : List Char :=
  template.before ++ (marker ++ (placeholder ++ (scriptEnd ++ template.after)))

/-- The two files of a report. -/
structure Files where
  json : List Char
  html : List Char
  deriving DecidableEq, Repr

def writeReport (template : Template) (result : Value) : Files :=
  let payload := dumps result
  ⟨payload ++ ['\n'], replaceAll placeholder (embed payload) template.text⟩

/-- What reading a file as text makes of the ends of lines. -/
def universalNewlines : List Char → List Char
  | [] => []
  | '\r' :: '\n' :: rest => '\n' :: universalNewlines rest
  | '\r' :: rest => '\n' :: universalNewlines rest
  | char :: rest => char :: universalNewlines rest

/-- The text that the check takes out of a page. -/
def extract (html : List Char) : Option (List Char) :=
  match splitOnce marker html with
  | none => none
  | some (_, behind) =>
      match splitOnce scriptEnd behind with
      | none => some behind
      | some (embedded, _) => some embedded

/-- `validate_report`, with the checks of the schema and of the trace. -/
def validateReport (schemaValid traceMatches : Value → Bool) (files : Files) : Option Value :=
  match loads (universalNewlines files.json) with
  | none => none
  | some result =>
      if schemaValid result = false ∨ traceMatches result = false then none
      else
        match extract (universalNewlines files.html) with
        | none => none
        | some embedded =>
            match loads embedded with
            | none => none
            | some value => if same value result then some result else none

/-- A report: a value that `json.dumps` writes. -/
structure Report where
  value : Value
  valid : Valid value

/-! ## The embedded text -/

/-- What becomes of a character. -/
def embedChar (char : Char) : List Char :=
  if char = '&' then ['\\', 'u', '0', '0', '2', '6']
  else if char = '<' then ['\\', 'u', '0', '0', '3', 'c']
  else if char = '>' then ['\\', 'u', '0', '0', '3', 'e']
  else if char = lineSeparator then ['\\', 'u', '2', '0', '2', '8']
  else if char = paragraphSeparator then ['\\', 'u', '2', '0', '2', '9']
  else [char]

/-- A character that the page cannot hold in the text of a script element. -/
def IsMarkup (char : Char) : Prop :=
  char = '<' ∨ char = '>' ∨ char = '&' ∨ char = lineSeparator ∨ char = paragraphSeparator

instance : DecidablePred IsMarkup := fun char => inferInstanceAs (Decidable (char = '<' ∨ _))

/-- The replacements one after the other replace each character once. -/
theorem embed_eq (payload : List Char) : embed payload = payload.flatMap embedChar := by
  unfold embed replaceChar
  simp only [List.flatMap_assoc]
  refine congrArg (payload.flatMap ·) (funext fun char => ?_)
  unfold embedChar
  split_ifs with hand hless hgreater hline hparagraph
  · decide
  · subst hless
    decide
  · subst hgreater
    decide
  · subst hline
    decide
  · subst hparagraph
    decide
  · simp [hless, hgreater, hline, hparagraph]

theorem not_isMarkup_of_embedChar {char each : Char} (h : each ∈ embedChar char) :
    ¬ IsMarkup each := by
  have hall {text : List Char} (hsafe : (text.all fun other => !decide (IsMarkup other)) = true)
      (hmem : each ∈ text) : ¬ IsMarkup each := by
    simpa using List.all_eq_true.mp hsafe each hmem
  unfold embedChar at h
  split_ifs at h with hand hless hgreater hline hparagraph
  · exact hall (by decide) h
  · exact hall (by decide) h
  · exact hall (by decide) h
  · exact hall (by decide) h
  · exact hall (by decide) h
  · obtain rfl := List.mem_singleton.mp h
    rintro (heq | heq | heq | heq | heq)
    · exact hless heq
    · exact hgreater heq
    · exact hand heq
    · exact hline heq
    · exact hparagraph heq

/-- No character of the embedded text means something in HTML. -/
theorem embed_safe (payload : List Char) : ∀ char ∈ embed payload, ¬ IsMarkup char := by
  intro char hchar
  rw [embed_eq] at hchar
  obtain ⟨original, -, hmem⟩ := List.mem_flatMap.mp hchar
  exact not_isMarkup_of_embedChar hmem

theorem isMarkup_not_isPlain {char : Char} (h : IsMarkup char) : isPlain char = false := by
  rcases h with rfl | rfl | rfl | rfl | rfl
  all_goals decide

theorem embedChar_of_safe {char : Char} (h : ¬ IsMarkup char) : embedChar char = [char] := by
  unfold IsMarkup at h
  unfold embedChar
  split_ifs with hand hless hgreater hline hparagraph <;> tauto

theorem keepsPlain_embedChar : KeepsPlain embedChar := fun _ hplain =>
  embedChar_of_safe fun h => absurd ((isMarkup_not_isPlain h).symm.trans hplain) nofun

/-- Hexadecimal digits are embedded as they are, and are no carriage returns. -/
theorem digitChar_safe : ∀ digit < 16, ¬ IsMarkup (Nat.digitChar digit) ∧
    Nat.digitChar digit ≠ '\r' := by
  decide

/-- What a character is written as, unless it is written as itself, is safe and on one line. -/
theorem encodeChar_cases (char : Char) :
    (encodeChar char = [char] ∧ char ≠ '\r') ∨
      (¬ IsMarkup char ∧ ∀ each ∈ encodeChar char, ¬ IsMarkup each ∧ each ≠ '\r') := by
  have hall {text : List Char}
      (hsafe : (text.all fun other => !decide (IsMarkup other) && other != '\r') = true) :
      ∀ each ∈ text, ¬ IsMarkup each ∧ each ≠ '\r' := by
    simpa using List.all_eq_true.mp hsafe
  unfold encodeChar
  split_ifs with hslash hquote hnewline hreturn htab hback hfeed hcontrol
  · exact Or.inr ⟨by rw [hslash]; decide, hall (by decide)⟩
  · exact Or.inr ⟨by rw [hquote]; decide, hall (by decide)⟩
  · exact Or.inr ⟨by rw [hnewline]; decide, hall (by decide)⟩
  · exact Or.inr ⟨by rw [hreturn]; decide, hall (by decide)⟩
  · exact Or.inr ⟨by rw [htab]; decide, hall (by decide)⟩
  · refine Or.inr ⟨?_, hall (by decide)⟩
    obtain rfl : char = Char.ofNat 0x08 := by rw [← hback, Char.ofNat_toNat]
    decide
  · refine Or.inr ⟨?_, hall (by decide)⟩
    obtain rfl : char = Char.ofNat 0x0c := by rw [← hfeed, Char.ofNat_toNat]
    decide
  · refine Or.inr ⟨?_, fun each heach => ?_⟩
    · rintro (rfl | rfl | rfl | rfl | rfl)
      all_goals exact absurd hcontrol (by decide)
    · have hdigit (value : Nat) := digitChar_safe (value % 16) (Nat.mod_lt _ (by decide))
      simp only [hex4, List.mem_cons, List.not_mem_nil, or_false] at heach
      rcases heach with rfl | rfl | rfl | rfl | rfl | rfl
      · decide
      · decide
      all_goals exact hdigit _
  · exact Or.inl ⟨rfl, hreturn⟩

theorem embedChar_of_markup {char : Char} (h : IsMarkup char) :
    embedChar char = '\\' :: 'u' :: hex4 char.toNat ∧ char.toNat < 0xd800 := by
  rcases h with rfl | rfl | rfl | rfl | rfl
  all_goals decide

/-- The way characters of strings are written in the page. -/
def encodeEmbedded (char : Char) : List Char := (encodeChar char).flatMap embedChar

theorem encodeEmbedded_safe {char : Char} (h : ¬ IsMarkup char) :
    encodeEmbedded char = encodeChar char := by
  refine flatMap_self fun each heach => embedChar_of_safe ?_
  rcases encodeChar_cases char with ⟨hself, -⟩ | ⟨-, hsafe⟩
  · rw [hself] at heach
    exact List.mem_singleton.mp heach ▸ h
  · exact (hsafe each heach).1

theorem encodeEmbedded_markup {char : Char} (h : IsMarkup char) :
    encodeEmbedded char = '\\' :: 'u' :: hex4 char.toNat := by
  have hself : encodeChar char = [char] := by
    rcases encodeChar_cases char with ⟨hself, -⟩ | ⟨hsafe, -⟩
    · exact hself
    · exact absurd h hsafe
  rw [encodeEmbedded, hself, List.flatMap_singleton, (embedChar_of_markup h).1]

theorem encodes_encodeEmbedded : Encodes encodeEmbedded := by
  intro char rest
  by_cases h : IsMarkup char
  · rw [encodeEmbedded_markup h]
    exact readString_hex4 (embedChar_of_markup h).2 rest
  · rw [encodeEmbedded_safe h]
    exact encodes_encodeChar char rest

/-! ## The page -/

theorem embed_dumps {value : Value} (h : Valid value) :
    embed (dumps value) = write encodeEmbedded 0 value := by
  rw [embed_eq, dumps, h.flatMap_write keepsPlain_embedChar]
  rfl

/-- Text without carriage returns keeps its lines. -/
theorem universalNewlines_self {text : List Char} (h : '\r' ∉ text) :
    universalNewlines text = text := by
  fun_induction universalNewlines text with
  | case1 => rfl
  | case2 rest ih => exact absurd List.mem_cons_self h
  | case3 rest hrest ih => exact absurd List.mem_cons_self h
  | case4 char rest hpair hreturn ih => rw [ih fun hmem => h (List.mem_cons_of_mem _ hmem)]

/-- A payload is written without carriage returns. -/
theorem return_not_mem_dumps {value : Value} (h : Valid value) : '\r' ∉ dumps value := by
  refine h.not_mem_write 0 (by decide) fun each hmem => ?_
  rcases encodeChar_cases each with ⟨hself, hne⟩ | ⟨-, hsafe⟩
  · rw [hself] at hmem
    exact hne (List.mem_singleton.mp hmem).symm
  · exact (hsafe '\r' hmem).2 rfl

/-- A payload is embedded without carriage returns. -/
theorem return_not_mem_embed {value : Value} (h : Valid value) : '\r' ∉ embed (dumps value) := by
  rw [embed_eq]
  intro hmem
  obtain ⟨char, hchar, hembed⟩ := List.mem_flatMap.mp hmem
  by_cases hsafe : IsMarkup char
  · rw [(embedChar_of_markup hsafe).1] at hembed
    rcases hsafe with rfl | rfl | rfl | rfl | rfl
    all_goals exact absurd hembed (by decide)
  · rw [embedChar_of_safe hsafe] at hembed
    obtain rfl := List.mem_singleton.mp hembed
    exact return_not_mem_dumps h hchar

theorem borderless_marks : Borderless placeholder ∧ Borderless marker ∧ Borderless scriptEnd := by
  decide

/-- The page is the template with the embedded text in the place of the placeholder. -/
theorem writeReport_html (template : Template) (value : Value) :
    (writeReport template value).html =
      template.before ++ (marker ++ (embed (dumps value) ++ (scriptEnd ++ template.after))) := by
  have hreplaced := @replaceAll_append Char _ placeholder (template.before ++ marker)
    (scriptEnd ++ template.after) (embed (dumps value)) borderless_marks.1
      template.placeholder_before
    template.placeholder_after
  simp only [List.append_assoc] at hreplaced
  exact hreplaced

/-- The payload is found in the report. -/
theorem extract_html (template : Template) (value : Value) :
    extract (writeReport template value).html = some (embed (dumps value)) := by
  have hless : ¬ scriptEnd <:+: embed (dumps value) := fun h =>
    embed_safe (dumps value) '<' (h.subset (by decide)) (Or.inl rfl)
  rw [writeReport_html, extract, splitOnce_append borderless_marks.2.1 template.marker_once]
  dsimp only
  rw [splitOnce_append borderless_marks.2.2 hless]

/-- The text embedded for a report has no character that means something in HTML, it is loaded as
the report, and the check of the report takes just this text out of the page and recovers the
report. -/
theorem report_embedded (template : Template) (report : Report) :
    (∀ char ∈ embed (dumps report.value), ¬ IsMarkup char) ∧
      loads (embed (dumps report.value)) = some report.value ∧
      extract (universalNewlines (writeReport template report.value).html) =
        some (embed (dumps report.value)) ∧
      ∀ schemaValid traceMatches : Value → Bool,
        schemaValid report.value = true → traceMatches report.value = true →
          validateReport schemaValid traceMatches (writeReport template report.value) =
            some report.value := by
  obtain ⟨value, hvalid⟩ := report
  have hloads : loads (embed (dumps value)) = some value := by
    have := loads_write encodes_encodeEmbedded hvalid (List.forall_mem_nil _)
    rwa [List.append_nil, ← embed_dumps hvalid] at this
  have hjson : loads (universalNewlines (writeReport template value).json) = some value := by
    have hreturn : '\r' ∉ dumps value ++ ['\n'] := by
      rw [List.mem_append]
      exact not_or.mpr ⟨return_not_mem_dumps hvalid, by decide⟩
    rw [writeReport, universalNewlines_self hreturn]
    exact loads_write encodes_encodeChar hvalid (List.forall_mem_singleton.mpr rfl)
  have hhtml : extract (universalNewlines (writeReport template value).html) =
      some (embed (dumps value)) := by
    rw [universalNewlines_self, extract_html]
    rw [writeReport_html]
    simp only [List.mem_append, not_or]
    exact ⟨template.returns_before, by decide, return_not_mem_embed hvalid, by
      decide, template.returns_after⟩
  refine ⟨embed_safe _, hloads, hhtml, fun schemaValid traceMatches hschema htrace => ?_⟩
  rw [validateReport, hjson]
  dsimp only
  rw [if_neg (by simp [hschema, htrace]), hhtml]
  dsimp only
  rw [hloads]
  exact if_pos hvalid.same_self

/-- A report with a string that would end its script element. -/
def endingReport : Report where
  value := .object [("findings".toList,
    .array [.object [("error".toList, .string (scriptEnd ++ [lineSeparator, '&', '\r']))],
      .number ['3']]),
    ("complete".toList, .bool false)]
  valid := by
    refine .object (by decide)
      (List.forall_mem_cons.mpr ⟨.array ?_, List.forall_mem_singleton.mpr (.bool _)⟩)
    refine List.forall_mem_cons.mpr ⟨.object (by decide) ?_, List.forall_mem_singleton.mpr ?_⟩
    · exact List.forall_mem_singleton.mpr (.string _)
    · exact .number (.intro (Or.inl rfl)
        (.digits rfl (by decide) (List.forall_mem_nil _)) .none .none)

/-- A page with a script behind the report. -/
def scriptPage : Template where
  before := "<body>\n".toList
  after := "\n<script>render()</script></body>".toList
  marker_once := by decide
  placeholder_before := by decide
  placeholder_after := by decide
  returns_before := by decide
  returns_after := by decide

/-- The report holds the end of a script element and a separator of lines, and is recovered from the
page. -/
theorem report_embedded_ending :
    scriptEnd <:+: dumps endingReport.value ∧ lineSeparator ∈ dumps endingReport.value ∧
      (∀ char ∈ embed (dumps endingReport.value), ¬ IsMarkup char) ∧
      extract (universalNewlines (writeReport scriptPage endingReport.value).html) =
        some (embed (dumps endingReport.value)) ∧
      validateReport (fun _ => true) (fun _ => true) (writeReport scriptPage endingReport.value) =
        some endingReport.value :=
  have ⟨hsafe, _, hextract, hvalidate⟩ := report_embedded scriptPage endingReport
  ⟨by decide, by decide, hsafe, hextract, hvalidate _ _ rfl rfl⟩

end Anettrace.NetworkReport
