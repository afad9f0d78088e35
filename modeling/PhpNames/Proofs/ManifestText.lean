import PhpNames.Manifest
import PhpNames.Proofs.WholeLines

/-!
The manifest as its lines give it.

A manifest reaches the reader as the lines of a document, joined with line feeds again. So every
terminator but a line feed comes to stand before a line feed. Between tokens this changes nothing:
there a carriage return is blank space as well, and the other terminators are no JSON. In a string
literal, however, U+0085, U+2028 and U+2029 may stand, and a line feed may not.
-/

namespace PhpNames

open Text

namespace Document

/-! ### Lines that are joined again -/

/-- A text with a line feed behind each terminator that does not end in one, and without the
carriage returns before line feeds. -/
def relaid : Text → Text
  | [] => []
  | '\r' :: '\n' :: rest => '\n' :: relaid rest
  | c :: rest =>
      if c = '\n' then '\n' :: relaid rest
      else if isBreak c then c :: '\n' :: relaid rest
      else c :: relaid rest

theorem join_lines_content_break_lines {line text : Text} (unbroken : Unbroken line.reverse) :
    joinLines ((breakLines line text).map content) = line.reverse ++ relaid text := by
  have more : ∀ rest, (breakLines [] rest).map content ≠ [] := by
    simp [break_lines_ne_nil]
  have nothing : Unbroken ([] : Text).reverse := by simp [Unbroken]
  fun_induction breakLines line text with
  | case1 line => simp [joinLines, relaid, content_unbroken unbroken, List.intercalate]
  | case2 line rest induction =>
      have body : content ('\n' :: '\r' :: line).reverse = line.reverse := by
        simpa using content_line unbroken (Or.inr rfl)
      rw [List.map_cons, join_lines_cons _ (more rest), induction nothing, body, relaid]
      rfl
  | case3 line c rest notPair breaks induction =>
      rw [List.map_cons, join_lines_cons _ (more rest), induction nothing, relaid, if_pos breaks]
      · by_cases feed : c = '\n'
        · have body : content (c :: line).reverse = line.reverse := by
            rw [feed]
            simpa using content_line unbroken (Or.inl rfl)
          rw [if_pos feed, body]
          rfl
        · rw [if_neg feed, List.reverse_cons, content_of_not_feed feed, List.append_assoc]
          rfl
      · exact notPair
  | case4 line c rest notPair kept induction =>
      have longer : Unbroken (c :: line).reverse := by
        rw [List.reverse_cons]
        exact unbroken_append.mpr ⟨unbroken, by simpa [Unbroken] using kept⟩
      have notFeed : c ≠ '\n' := by
        rintro rfl
        exact kept (by decide)
      rw [induction longer, relaid, if_neg notFeed, if_neg kept, List.reverse_cons,
        List.append_assoc]
      · rfl
      · exact notPair

theorem join_lines_lines (document : Document) :
    joinLines document.lines = relaid document.text := by
  have unbroken : Unbroken ([] : Text).reverse := by simp [Unbroken]
  exact join_lines_content_break_lines unbroken

end Document

/-! ### Terminators under the reader -/

namespace Json.Token

def isSeparator (c : Char) : Bool :=
  c == Char.ofNat 0x85 || c == Char.ofNat 0x2028 || c == Char.ofNat 0x2029

theorem is_break_of_is_separator {c : Char} (separates : isSeparator c = true) :
    Document.isBreak c = true := by
  simp only [isSeparator, Bool.or_eq_true, beq_iff_eq] at separates
  rcases separates with (rfl | rfl) | rfl <;> rfl

namespace Reader

def inString (reader : Reader) : Bool :=
  match reader.place with
  | .string _ => true
  | _ => false

theorem start_blank (tokens : List Token) {c : Char} (blank : c = '\n' ∨ c = '\r') :
    start tokens c = some ⟨tokens, .between⟩ := by
  rcases blank with rfl | rfl <;> rfl

/-- A line feed or a carriage return ends a token, and a string literal holds neither. -/
theorem step_blank (reader : Reader) {c : Char} (blank : c = '\n' ∨ c = '\r') :
    reader.step c = reader.close.map fun tokens => ⟨tokens, .between⟩ := by
  obtain ⟨tokens, place⟩ := reader
  have starts : (start · c) = fun tokens => some ⟨tokens, .between⟩ :=
    funext fun tokens => start_blank tokens blank
  cases place with
  | between => exact start_blank tokens blank
  | number run =>
      have ends : isNumberChar c = false := by rcases blank with rfl | rfl <;> rfl
      simp only [step, ends, starts, Option.map_eq_bind]
      rfl
  | word run =>
      have ends : c.isLower = false := by rcases blank with rfl | rfl <;> rfl
      simp only [step, ends, starts, Option.map_eq_bind]
      rfl
  | string points => rcases blank with rfl | rfl <;> rfl
  | escape points => rcases blank with rfl | rfl <;> rfl
  | code points value missing => rcases blank with rfl | rfl <;> rfl

theorem start_terminator (tokens : List Token) {c : Char} (breaks : Document.isBreak c = true)
    (notFeed : c ≠ '\n') (notReturn : c ≠ '\r') : start tokens c = none := by
  simp only [Document.isBreak, Bool.or_eq_true, beq_iff_eq, notFeed, notReturn, false_or] at breaks
  rcases breaks with (((rfl | rfl) | rfl) | rfl) | rfl <;> rfl

/-- Every other terminator is an error, unless it is a separator in a string literal. -/
theorem step_terminator (reader : Reader) {c : Char} (breaks : Document.isBreak c = true)
    (notFeed : c ≠ '\n') (notReturn : c ≠ '\r') :
    reader.step c =
      match reader.place with
      | .string points =>
          if isSeparator c then some { reader with place := .string (c.toNat :: points) } else none
      | _ => none := by
  obtain ⟨tokens, place⟩ := reader
  have starts : (start · c) = fun _ => none :=
    funext fun tokens => start_terminator tokens breaks notFeed notReturn
  simp only [Document.isBreak, Bool.or_eq_true, beq_iff_eq, notFeed, notReturn, false_or] at breaks
  cases place with
  | between => exact congrFun starts tokens
  | number run =>
      have ends : isNumberChar c = false := by
        rcases breaks with (((rfl | rfl) | rfl) | rfl) | rfl <;> rfl
      simp [step, ends, starts]
  | word run =>
      have ends : c.isLower = false := by
        rcases breaks with (((rfl | rfl) | rfl) | rfl) | rfl <;> rfl
      simp [step, ends, starts]
  | string points => rcases breaks with (((rfl | rfl) | rfl) | rfl) | rfl <;> rfl
  | escape points => rcases breaks with (((rfl | rfl) | rfl) | rfl) | rfl <;> rfl
  | code points value missing => rcases breaks with (((rfl | rfl) | rfl) | rfl) | rfl <;> rfl

def run (reader : Reader) (text : Text) : Option (List Token) :=
  (text.foldlM step reader).bind close

theorem run_cons (reader : Reader) (c : Char) (rest : Text) :
    reader.run (c :: rest) = (reader.step c).bind (·.run rest) := by
  rw [run, List.foldlM_cons]
  cases reader.step c <;> rfl

def meetsSeparator (reader : Reader) : Text → Bool
  | [] => false
  | c :: rest =>
      reader.inString && isSeparator c || (reader.step c).any (meetsSeparator · rest)

theorem run_blank (reader : Reader) {c : Char} (blank : c = '\n' ∨ c = '\r') (rest : Text) :
    reader.run (c :: rest) = reader.close.bind (run ⟨·, .between⟩ rest) := by
  rw [run_cons, step_blank reader blank, Option.bind_map]
  rfl

theorem meets_separator_blank (reader : Reader) {c : Char} (blank : c = '\n' ∨ c = '\r')
    (rest : Text) :
    reader.meetsSeparator (c :: rest) = reader.close.any (meetsSeparator ⟨·, .between⟩ rest) := by
  have apart : isSeparator c = false := by rcases blank with rfl | rfl <;> rfl
  rw [meetsSeparator, apart, step_blank reader blank, Bool.and_false, Bool.false_or, Option.any_map]

@[simp] theorem close_between (tokens : List Token) : close ⟨tokens, .between⟩ = some tokens := rfl

/-- Joined lines read as the text does, unless the reader meets a separator in a string literal. -/
theorem run_relaid (reader : Reader) (text : Text) :
    reader.run (Document.relaid text) =
      if reader.meetsSeparator text then none else reader.run text := by
  fun_induction Document.relaid text generalizing reader with
  | case1 => rfl
  | case2 rest induction =>
      simp only [run_blank _ (Or.inl rfl), run_blank _ (Or.inr rfl),
        meets_separator_blank _ (Or.inl rfl), meets_separator_blank _ (Or.inr rfl), close_between,
        Option.any_some, Option.bind_some, induction]
      cases reader.close <;> simp
  | case3 rest notPair induction =>
      simp only [run_blank _ (Or.inl rfl), meets_separator_blank _ (Or.inl rfl), induction]
      cases reader.close <;> simp
  | case4 c rest notPair notFeed breaks induction =>
      by_cases isReturn : c = '\r'
      · simp only [run_blank _ (Or.inl rfl), run_blank _ (Or.inr isReturn),
          meets_separator_blank _ (Or.inr isReturn), close_between, Option.bind_some, induction]
        cases reader.close <;> simp
      · have read := step_terminator reader breaks notFeed isReturn
        by_cases meets : (reader.inString && isSeparator c) = true
        · obtain ⟨inside, separates⟩ := Bool.and_eq_true_iff.mp meets
          rw [meetsSeparator, meets, Bool.true_or, if_pos rfl, run_cons, read]
          split
          · rw [if_pos separates, Option.bind_some, run_blank _ (Or.inl rfl)]
            rfl
          · rfl
        · have stops : reader.step c = none := by
            rw [read]
            split
            · rename_i points isString
              rw [if_neg fun separates => meets (by simp [inString, isString, separates])]
            · rfl
          rw [meetsSeparator, run_cons, run_cons, stops]
          simp
  | case5 c rest notPair notFeed kept induction =>
      have apart : isSeparator c = false := by
        rw [Bool.eq_false_iff]
        exact fun separates => kept (is_break_of_is_separator separates)
      rw [run_cons, run_cons, meetsSeparator, apart, Bool.and_false, Bool.false_or]
      cases reader.step c with
      | none => rfl
      | some next => simp [induction]

theorem meets_separator_iff {reader : Reader} {text : Text} :
    reader.meetsSeparator text = true ↔ ∃ before c after later, text = before ++ c :: after ∧
      before.foldlM step reader = some later ∧ later.inString = true ∧ isSeparator c = true := by
  induction text generalizing reader with
  | nil => simp [meetsSeparator]
  | cons d rest induction =>
      rw [meetsSeparator, Bool.or_eq_true, Bool.and_eq_true, Option.any_eq_true]
      constructor
      · rintro (⟨inside, separates⟩ | ⟨next, read, meets⟩)
        · exact ⟨[], d, rest, reader, rfl, rfl, inside, separates⟩
        · obtain ⟨before, c, after, later, rfl, reached, found⟩ := induction.mp meets
          refine ⟨d :: before, c, after, later, rfl, ?_, found⟩
          rw [List.foldlM_cons, read]
          exact reached
      · rintro ⟨before, c, after, later, split, reached, inside, separates⟩
        cases before with
        | nil =>
            cases split
            cases reached
            exact Or.inl ⟨inside, separates⟩
        | cons first before =>
            cases split
            rw [List.foldlM_cons] at reached
            obtain ⟨next, read, further⟩ := Option.bind_eq_some_iff.mp reached
            exact Or.inr ⟨next, read,
              induction.mpr ⟨before, c, after, later, rfl, further, inside, separates⟩⟩

end Reader

/-- Whether a string literal of a text holds U+0085, U+2028 or U+2029 unescaped: the text is read up
to there, and the reader then stands in a string. -/
def SeparatorInString (text : Text) : Prop :=
  ∃ before c after reader, text = before ++ c :: after ∧
    before.foldlM Reader.step {} = some reader ∧ reader.inString = true ∧ isSeparator c = true

instance (text : Text) : Decidable (SeparatorInString text) :=
  decidable_of_iff _ Reader.meets_separator_iff

theorem read?_join_lines (text : Text) :
    read? (joinLines (Document.lines ⟨text⟩)) =
      if Reader.meetsSeparator {} text then none else read? text := by
  have run_eq := Reader.run_relaid {} text
  rw [← Document.join_lines_lines ⟨text⟩] at run_eq
  have mapped := congrArg (Option.map List.reverse) run_eq
  rwa [apply_ite (Option.map List.reverse)] at mapped

end Json.Token

/-! ### The manifest -/

namespace Manifest

open Json.Token

variable {text other : Text}

theorem autoload_map_congr (same : Json.parse? text = Json.parse? other) :
    autoloadMap text = autoloadMap other := by
  rw [autoloadMap, autoloadMap, sections?, sections?, same]

theorem autoload_map_unreadable (unreadable : Json.parse? text = none) :
    autoloadMap text = .error (.invalidManifest .unreadable) := by
  rw [autoloadMap, sections?, unreadable]
  rfl

def SameOutcome : Except ResolveError AutoloadMap → Except ResolveError AutoloadMap → Prop
  | .ok map, .ok other => map = other
  | .error (.invalidManifest _), .error (.invalidManifest _) => True
  | .error error, .error other => error = other
  | _, _ => False

theorem same_outcome_refl (outcome : Except ResolveError AutoloadMap) :
    SameOutcome outcome outcome := by
  cases outcome with
  | ok map => rfl
  | error error => cases error <;> simp [SameOutcome]

theorem same_outcome_invalid_iff {fault : ManifestFault}
    {outcome : Except ResolveError AutoloadMap} :
    SameOutcome (.error (.invalidManifest fault)) outcome ↔
      ∃ other, outcome = .error (.invalidManifest other) := by
  cases outcome with
  | ok map => simp [SameOutcome]
  | error error => cases error <;> simp [SameOutcome]

/-- What becomes of a manifest that is read off its lines. -/
theorem autoload_map_join_lines (text : Text) :
    (SeparatorInString text →
      autoloadMap (joinLines (Document.lines ⟨text⟩)) = .error (.invalidManifest .unreadable)) ∧
    (¬ SeparatorInString text →
      autoloadMap (joinLines (Document.lines ⟨text⟩)) = autoloadMap text) ∧
    (SameOutcome (autoloadMap (joinLines (Document.lines ⟨text⟩))) (autoloadMap text) ↔
      (SeparatorInString text → ∃ fault, autoloadMap text = .error (.invalidManifest fault))) := by
  have unreadable : SeparatorInString text →
      autoloadMap (joinLines (Document.lines ⟨text⟩)) = .error (.invalidManifest .unreadable) := by
    intro separator
    apply autoload_map_unreadable
    rw [Json.parse?, read?_join_lines, if_pos (Reader.meets_separator_iff.mpr separator)]
    rfl
  have kept : ¬ SeparatorInString text →
      autoloadMap (joinLines (Document.lines ⟨text⟩)) = autoloadMap text := by
    intro apart
    apply autoload_map_congr
    rw [Json.parse?, read?_join_lines,
      if_neg fun meets => apart (Reader.meets_separator_iff.mp meets)]
    rfl
  refine ⟨unreadable, kept, ?_⟩
  by_cases separator : SeparatorInString text
  · rw [unreadable separator, same_outcome_invalid_iff, forall_prop_of_true separator]
  · rw [kept separator]
    exact iff_of_true (same_outcome_refl _) fun found => absurd found separator

def describedInTwoLines : Text :=
  ("\x7b\"autoload\":\x7b\"psr-4\":\x7b\"App\\\\\":\"src/\"\x7d\x7d," ++
    "\"description\":\"one\u2028two\"\x7d").toList

/-- The manifest has an autoload map, and none when it is read off its lines. -/
theorem autoload_map_lost_in_lines :
    autoloadMap describedInTwoLines = .ok ⟨[("App\\".toList, ["src/".toList])]⟩ ∧
      autoloadMap (joinLines (Document.lines ⟨describedInTwoLines⟩)) =
        .error (.invalidManifest .unreadable) ∧
      ¬ SameOutcome (autoloadMap (joinLines (Document.lines ⟨describedInTwoLines⟩)))
        (autoloadMap describedInTwoLines) := by
  have kept : autoloadMap describedInTwoLines = .ok ⟨[("App\\".toList, ["src/".toList])]⟩ := by
    decide +kernel
  have lost : autoloadMap (joinLines (Document.lines ⟨describedInTwoLines⟩)) =
      .error (.invalidManifest .unreadable) := by
    decide +kernel
  refine ⟨kept, lost, ?_⟩
  rw [kept, lost]
  exact id

end Manifest
end PhpNames
