import Mathlib.Data.List.Basic
import PhpNames.Uri.FilePath

/-!
The URI of a path names that path.

Every byte of a name is escaped or stands for itself, so to read the escapes gives the name back. A
segment is a dot segment only if it stands for one or two dots, however these are spelled. So a path
without steps up comes back with the same steps, perhaps with a slash behind it.
-/

namespace PhpNames

open Text (Bytes)

/-! ### Escapes -/

namespace Uri

theorem forall_byte {property : UInt8 → Prop}
    (checked : ∀ value < 256, property (UInt8.ofNat value)) (byte : UInt8) : property byte := by
  have here := checked byte.toNat byte.toNat_lt
  rwa [UInt8.ofNat_toNat] at here

theorem utf8_of_unescaped : ∀ byte, isEscapedInPath byte = false →
    byte ≠ percentSign ∧ Text.utf8 (percentEncodeByte byte) = [byte] :=
  forall_byte (by decide +kernel)

def digitByte (value : Nat) : UInt8 :=
  UInt8.ofNat (hexDigit value).toNat

theorem utf8_of_escaped : ∀ byte : UInt8, isEscapedInPath byte = true →
    Text.utf8 (percentEncodeByte byte) =
        [percentSign, digitByte (byte.toNat / 16), digitByte (byte.toNat % 16)] ∧
      escapedByte? (digitByte (byte.toNat / 16)) (digitByte (byte.toNat % 16)) = some byte :=
  forall_byte (by decide +kernel)

theorem percent_decode_cons {byte : UInt8} (plain : byte ≠ percentSign) (rest : Bytes) :
    percentDecode (byte :: rest) = byte :: percentDecode rest := by
  match rest with
  | [] => rfl
  | [_] => rfl
  | _ :: _ :: _ => rw [percentDecode, if_neg plain]

theorem percent_decode_encode_byte (byte : UInt8) (rest : Bytes) :
    percentDecode (Text.utf8 (percentEncodeByte byte) ++ rest) = byte :: percentDecode rest := by
  cases escaped : isEscapedInPath byte with
  | false =>
      obtain ⟨plain, spelled⟩ := utf8_of_unescaped byte escaped
      rw [spelled, List.singleton_append, percent_decode_cons plain]
  | true =>
      obtain ⟨spelled, value⟩ := utf8_of_escaped byte escaped
      rw [spelled, List.cons_append, List.cons_append, List.singleton_append, percentDecode,
        if_pos rfl, value]

theorem percent_decode_encode (bytes : Bytes) :
    percentDecode (Text.utf8 (percentEncode bytes)) = bytes := by
  induction bytes with
  | nil => rfl
  | cons byte rest induction =>
      have split : Text.utf8 (percentEncode (byte :: rest)) =
          Text.utf8 (percentEncodeByte byte) ++ Text.utf8 (percentEncode rest) := by
        simp [percentEncode, Text.utf8, List.flatMap_append]
      rw [split, percent_decode_encode_byte, induction]

/-! ### Segments -/

def isSegmentChar (c : Char) : Bool :=
  0x20 < c.toNat && !endsPath c && !SchemeKind.file.isSlash c

theorem is_segment_char_of_mem_encode {bytes : Bytes} {c : Char}
    (member : c ∈ percentEncode bytes) :
    isSegmentChar c = true := by
  have checked : ∀ byte, (percentEncodeByte byte).all isSegmentChar = true :=
    forall_byte (by decide +kernel)
  obtain ⟨byte, -, inByte⟩ := List.mem_flatMap.mp member
  exact List.all_eq_true.mp (checked byte) c inByte

def joinSegments (segments : List Text) : Text :=
  segments.flatMap ('/' :: ·)

theorem segments_append {segment : Text} (clean : ∀ c ∈ segment, isSegmentChar c = true)
    (front rest : Text) :
    segments .file front (segment ++ rest) = segments .file (segment.reverse ++ front) rest := by
  induction segment generalizing front with
  | nil => rfl
  | cons c segment induction =>
      obtain ⟨first, others⟩ := List.forall_mem_cons.mp clean
      simp only [isSegmentChar, Bool.and_eq_true, Bool.not_eq_true'] at first
      rw [List.cons_append, segments, first.1.2, first.2, if_neg Bool.false_ne_true,
        if_neg Bool.false_ne_true, induction others]
      simp

theorem segments_join_segments {names : List Text}
    (clean : ∀ name ∈ names, ∀ c ∈ name, isSegmentChar c = true) (front : Text) :
    segments .file front (joinSegments names) = front.reverse :: names := by
  induction names generalizing front with
  | nil => rfl
  | cons name names induction =>
      obtain ⟨first, others⟩ := List.forall_mem_cons.mp clean
      change segments .file front ('/' :: (name ++ joinSegments names)) = _
      have slash : segments .file front ('/' :: (name ++ joinSegments names)) =
          front.reverse :: segments .file [] (name ++ joinSegments names) := rfl
      rw [slash, segments_append first, induction others]
      simp

theorem to_lower_cases (c : Char) :
    c.toLower = c ∨ 65 ≤ c.toNat ∧ c.toNat ≤ 90 ∧ c.toLower.toNat = c.toNat + 32 := by
  by_cases capital : 65 ≤ c.toNat ∧ c.toNat ≤ 90
  · have checked : ∀ value < 91, 65 ≤ value → (Char.ofNat value).toLower.toNat = value + 32 := by
      decide +kernel
    have here := checked c.toNat (by omega) capital.1
    rw [Char.ofNat_toNat] at here
    exact Or.inr ⟨capital.1, capital.2, here⟩
  · exact Or.inl (dif_neg capital)

theorem eq_of_to_lower {c d : Char} (small : d.toNat < 97) (lowered : c.toLower = d) : c = d := by
  rcases to_lower_cases c with same | ⟨low, -, shifted⟩
  · exact same.symm.trans lowered
  · rw [lowered] at shifted
    omega

theorem eq_of_to_lower_e {c : Char} (lowered : c.toLower = 'e') : c = 'e' ∨ c = 'E' := by
  rcases to_lower_cases c with same | ⟨-, -, shifted⟩
  · exact Or.inl (same.symm.trans lowered)
  · have point : 'e'.toNat = c.toNat + 32 := lowered ▸ shifted
    have letter : 'e'.toNat = 'E'.toNat + 32 := rfl
    exact Or.inr (Char.toNat_inj.mp (by omega))

def dotSpellings : List Text :=
  [".".toList, "%2e".toList]

/-- A dot, however it is spelled. -/
theorem percent_decode_dot {spelled : Text} (isDot : spelled.map Char.toLower ∈ dotSpellings)
    (rest : Bytes) :
    percentDecode (Text.utf8 spelled ++ rest) = Path.dot :: percentDecode rest := by
  simp only [dotSpellings, List.mem_cons, List.not_mem_nil, or_false] at isDot
  rcases isDot with plain | escaped
  · obtain ⟨c, tail, rfl, lowered, ends⟩ := List.map_eq_cons_iff.mp plain
    obtain rfl := eq_of_to_lower (by decide) lowered
    obtain rfl := List.map_eq_nil_iff.mp ends
    exact percent_decode_cons (by decide) rest
  · obtain ⟨c, tail, rfl, sign, further⟩ := List.map_eq_cons_iff.mp escaped
    obtain ⟨d, tail, rfl, digit, further⟩ := List.map_eq_cons_iff.mp further
    obtain ⟨letter, tail, rfl, lowered, ends⟩ := List.map_eq_cons_iff.mp further
    obtain rfl := eq_of_to_lower (by decide) sign
    obtain rfl := eq_of_to_lower (by decide) digit
    obtain rfl := List.map_eq_nil_iff.mp ends
    rcases eq_of_to_lower_e lowered with rfl | rfl
    · rfl
    · rfl

theorem segment_bytes_of_is_single_dot {segment : Text} (dots : isSingleDot segment = true) :
    segmentBytes segment = [Path.dot] := by
  obtain ⟨spelling, listed, same⟩ := List.any_eq_true.mp dots
  have checked : ∀ spelling ∈ [".", "%2e"], spelling.toList ∈ dotSpellings := by decide
  have isDot := checked spelling listed
  rw [beq_iff_eq.mp same] at isDot
  have read := percent_decode_dot isDot []
  rwa [List.append_nil] at read

theorem segment_bytes_of_is_double_dot {segment : Text} (dots : isDoubleDot segment = true) :
    segmentBytes segment = [Path.dot, Path.dot] := by
  -- the four spellings are those of two dots
  have twice : ∀ spelling ∈ ["..", ".%2e", "%2e.", "%2e%2e"],
      ∃ first ∈ dotSpellings, ∃ second ∈ dotSpellings, spelling.toList = first ++ second := by
    decide
  obtain ⟨spelling, listed, same⟩ := List.any_eq_true.mp dots
  obtain ⟨left, isLeft, right, isRight, whole⟩ := twice spelling listed
  rw [beq_iff_eq.mp same] at whole
  obtain ⟨first, second, rfl, rfl, rfl⟩ := List.map_eq_append_iff.mp whole
  have last := percent_decode_dot isRight []
  rw [List.append_nil] at last
  rw [segmentBytes, Text.utf8, List.flatMap_append]
  exact (percent_decode_dot isLeft (Text.utf8 second)).trans (congrArg _ last)

theorem entered_below {above : List Text} (filled : above ≠ []) (kind : SchemeKind)
    (segment : Text) : entered kind above segment = segment := by
  have below : above.isEmpty = false := by simpa using filled
  unfold entered
  split
  · rw [below, Bool.and_false, Bool.false_and, if_neg Bool.false_ne_true]
  · rfl

/-- Below another segment, a segment that is no dot segment is entered as it is. -/
theorem resolve_dots_eq {names above : List Text} (filled : above ≠ [])
    (noDots : ∀ name ∈ names, isSingleDot name = false ∧ isDoubleDot name = false) :
    resolveDots .file above names = above.reverse ++ names := by
  induction names generalizing above with
  | nil => simp [resolveDots]
  | cons name names induction =>
      obtain ⟨⟨single, double⟩, others⟩ := List.forall_mem_cons.mp noDots
      cases names with
      | nil =>
          rw [resolveDots, double, single, if_neg Bool.false_ne_true, if_neg Bool.false_ne_true,
            entered_below filled]
      | cons next names =>
          rw [resolveDots, double, single, if_neg Bool.false_ne_true, if_neg Bool.false_ne_true,
            entered_below filled, induction (List.cons_ne_nil _ _) others]
          · simp
          · simp

end Uri

/-! ### Paths and their pieces -/

namespace Path

def joinPieces (pieces : List Bytes) : Bytes :=
  pieces.flatMap (slash :: ·)

theorem split_append {piece : Bytes} (whole : slash ∉ piece) (front rest : Bytes) :
    split front (piece ++ rest) = split (piece.reverse ++ front) rest := by
  induction piece generalizing front with
  | nil => rfl
  | cons byte piece induction =>
      obtain ⟨notSlash, others⟩ := not_or.mp (List.mem_cons.not.mp whole)
      rw [List.cons_append, split, if_neg (Ne.symm notSlash), induction others]
      simp

theorem split_join_pieces {pieces : List Bytes} (whole : ∀ piece ∈ pieces, slash ∉ piece)
    (front : Bytes) : split front (joinPieces pieces) = front.reverse :: pieces := by
  induction pieces generalizing front with
  | nil => rfl
  | cons piece pieces induction =>
      obtain ⟨first, others⟩ := List.forall_mem_cons.mp whole
      have cut : split front (joinPieces (piece :: pieces)) =
          front.reverse :: split [] (piece ++ joinPieces pieces) := rfl
      rw [cut, split_append first, induction others]
      simp

theorem split_trailing (front bytes : Bytes) :
    split front (bytes ++ [slash]) = split front bytes ++ [[]] := by
  induction bytes generalizing front with
  | nil => rfl
  | cons byte bytes induction =>
      rw [List.cons_append, split, split]
      split
      · rw [induction, List.cons_append]
      · exact induction _

theorem not_mem_of_split {front bytes piece : Bytes} (clean : slash ∉ front)
    (member : piece ∈ split front bytes) : slash ∉ piece := by
  induction bytes generalizing front with
  | nil =>
      rw [split, List.mem_singleton] at member
      rw [member]
      simpa using clean
  | cons byte bytes induction =>
      rw [split] at member
      split at member
      · rcases List.mem_cons.mp member with rfl | further
        · simpa using clean
        · exact induction List.not_mem_nil further
      · rename_i notSlash
        exact induction (List.mem_cons.not.mpr (not_or.mpr ⟨Ne.symm notSlash, clean⟩)) member

theorem components_absolute (rest : Bytes) :
    components ⟨slash :: rest⟩ =
      .root :: ((split [] rest).filter (!isIdle ·)).map stepOf :=
  rfl

theorem components_trailing (rest : Bytes) :
    components ⟨slash :: (rest ++ [slash])⟩ = components ⟨slash :: rest⟩ := by
  rw [components_absolute, components_absolute, split_trailing, List.filter_append]
  simp [isIdle]

structure IsName (name : Bytes) : Prop where
  whole : slash ∉ name
  filled : name ≠ []
  notDot : name ≠ [dot]
  notDots : name ≠ [dot, dot]

theorem step_of_name {name : Bytes} (notDots : name ≠ [dot, dot]) : stepOf name = .named name := by
  rw [stepOf, beq_false_of_ne notDots, if_neg Bool.false_ne_true]

/-- The steps of a path from the root on are names, if none of them leads up. -/
theorem exists_names {rest : Bytes}
    (noParent : Component.parent ∉ components ⟨slash :: rest⟩) :
    ∃ names : List Bytes, components ⟨slash :: rest⟩ = .root :: names.map .named ∧
      ∀ name ∈ names, IsName name := by
  rw [components_absolute] at noParent ⊢
  have isName : ∀ name ∈ (split [] rest).filter (!isIdle ·), IsName name := by
    intro name member
    obtain ⟨inPieces, busy⟩ := List.mem_filter.mp member
    refine ⟨not_mem_of_split List.not_mem_nil inPieces, ?_, ?_, ?_⟩
    · rintro rfl
      cases busy
    · rintro rfl
      cases busy
    · rintro rfl
      exact noParent (List.mem_cons_of_mem _ (List.mem_map_of_mem member))
  refine ⟨_, ?_, isName⟩
  congr 1
  exact List.map_congr_left fun name member => step_of_name (isName name member).notDots

theorem components_join_pieces {names : List Bytes} (areNames : ∀ name ∈ names, IsName name)
    (some : names ≠ []) : components ⟨joinPieces names⟩ = .root :: names.map .named := by
  obtain ⟨first, others, rfl⟩ := List.exists_cons_of_ne_nil some
  obtain ⟨isFirst, areOthers⟩ := List.forall_mem_cons.mp areNames
  have busy : (first :: others).filter (!isIdle ·) = first :: others := by
    apply List.filter_eq_self.mpr
    intro name member
    obtain ⟨-, filled, notDot, -⟩ := areNames name member
    simp [isIdle, filled, notDot]
  have pieces : split [] (first ++ joinPieces others) = first :: others := by
    rw [split_append isFirst.whole,
      split_join_pieces fun name member => (areOthers name member).whole]
    simp
  change components ⟨slash :: (first ++ joinPieces others)⟩ = _
  rw [components_absolute, pieces, busy]
  congr 1
  exact List.map_congr_left fun name member => step_of_name (areNames name member).notDots

end Path

/-! ### There and back -/

namespace Uri

theorem tidy_eq {uri : Text} (clean : ∀ c ∈ uri, 0x20 < c.toNat) : tidy uri = uri := by
  have kept : ∀ text : Text, text ⊆ uri →
      text.dropWhile (fun c => decide (c.toNat ≤ 0x20)) = text := by
    intro text inside
    cases text with
    | nil => rfl
    | cons c rest =>
        have visible := clean c (inside List.mem_cons_self)
        exact List.dropWhile_cons_of_neg (by simpa using visible)
  have trimmed : ((uri.dropWhile fun c => decide (c.toNat ≤ 0x20)).reverse.dropWhile
      fun c => decide (c.toNat ≤ 0x20)).reverse = uri := by
    rw [kept uri (List.Subset.refl uri), kept uri.reverse (List.reverse_subset.mpr
      (List.Subset.refl uri)), List.reverse_reverse]
  rw [tidy, trimmed, List.filter_eq_self]
  intro c member
  have apart : ∀ blank : Char, blank.toNat ≤ 0x20 → (c != blank) = true := by
    intro blank low
    rw [bne_iff_ne]
    rintro rfl
    exact absurd (clean c member) (Nat.not_lt.mpr low)
  rw [apart '\t' (by decide), apart '\n' (by decide), apart '\r' (by decide)]
  rfl

theorem close_drive_cases (bytes : Bytes) :
    closeDrive bytes = bytes ∨ closeDrive bytes = bytes ++ [Path.slash] := by
  unfold closeDrive
  split
  · split
    · exact Or.inr rfl
    · exact Or.inl rfl
  · exact Or.inl rfl

theorem file_path?_join_segments {names : List Text} (some : names ≠ [])
    (clean : ∀ name ∈ names, ∀ c ∈ name, isSegmentChar c = true)
    (filled : ∀ name ∈ names, name ≠ [])
    (noDots : ∀ name ∈ names, isSingleDot name = false ∧ isDoubleDot name = false) :
    filePath? ('/' :: '/' :: joinSegments names) = .some names := by
  have whole : resolved .file (joinSegments names) = [] :: names := by
    rw [resolved, segments_join_segments clean, List.reverse_nil]
    obtain ⟨first, others, rfl⟩ := List.exists_cons_of_ne_nil some
    have entering : resolveDots .file [] ([] :: first :: others) =
        resolveDots .file [[]] (first :: others) := rfl
    rw [entering, resolve_dots_eq (List.cons_ne_nil _ _) noDots]
    rfl
  obtain ⟨first, others, rfl⟩ := List.exists_cons_of_ne_nil some
  have afterHost : pathAfterHost? (joinSegments (first :: others)) =
      .some (resolved .file (joinSegments (first :: others))) := rfl
  obtain ⟨c, rest, rfl⟩ := List.exists_cons_of_ne_nil (filled first List.mem_cons_self)
  change (pathAfterHost? (joinSegments ((c :: rest) :: others))).map dropEmpty = _
  rw [afterHost, whole]
  rfl

/-- What the segments of a file URI name. -/
theorem to_path?_join_segments {names : List Text} (some : names ≠ [])
    (clean : ∀ name ∈ names, ∀ c ∈ name, isSegmentChar c = true)
    (filled : ∀ name ∈ names, name ≠ [])
    (noDots : ∀ name ∈ names, isSingleDot name = false ∧ isDoubleDot name = false) :
    toPath? ("file://".toList ++ joinSegments names) =
      .some ⟨closeDrive (Path.joinPieces (names.map segmentBytes))⟩ := by
  have visible : ∀ c ∈ "file://".toList ++ joinSegments names, 0x20 < c.toNat := by
    intro c member
    rcases List.mem_append.mp member with inLead | inSegments
    · have lead : ("file://".toList.all fun c => decide (0x20 < c.toNat)) = true := by decide
      exact of_decide_eq_true (List.all_eq_true.mp lead c inLead)
    · obtain ⟨name, inNames, inName⟩ := List.mem_flatMap.mp inSegments
      rcases List.mem_cons.mp inName with rfl | inside
      · decide
      · have isSegment := clean name inNames c inside
        simp only [isSegmentChar, Bool.and_eq_true, decide_eq_true_eq] at isSegment
        exact isSegment.1.1
  have cut : cutScheme? ("file://".toList ++ joinSegments names) =
      .some ("file".toList, '/' :: '/' :: joinSegments names) := rfl
  have path := file_path?_join_segments some clean filled noDots
  have bytes : names.flatMap (fun segment => Path.slash :: segmentBytes segment) =
      Path.joinPieces (names.map segmentBytes) := by
    rw [Path.joinPieces, List.flatMap_map]
  rw [toPath?, tidy_eq visible, cut]
  change (filePath? ('/' :: '/' :: joinSegments names)).bind _ = _
  rw [path, ← bytes]
  rfl

theorem segment_bytes_encode (name : Bytes) : segmentBytes (percentEncode name) = name :=
  percent_decode_encode name

/-- The segment of a name names it, and nothing else. -/
theorem encode_of_is_name {name : Bytes} (isName : Path.IsName name) :
    percentEncode name ≠ [] ∧ isSingleDot (percentEncode name) = false ∧
      isDoubleDot (percentEncode name) = false := by
  have back := segment_bytes_encode name
  refine ⟨?_, ?_, ?_⟩
  · intro empty
    rw [empty] at back
    exact isName.filled back.symm
  · rw [Bool.eq_false_iff]
    intro dots
    exact isName.notDot (back.symm.trans (segment_bytes_of_is_single_dot dots))
  · rw [Bool.eq_false_iff]
    intro dots
    exact isName.notDots (back.symm.trans (segment_bytes_of_is_double_dot dots))

theorem to_path?_join_segments_encode {names : List Bytes} (some : names ≠ [])
    (areNames : ∀ name ∈ names, Path.IsName name) :
    toPath? ("file://".toList ++ joinSegments (names.map percentEncode)) =
      .some ⟨closeDrive (Path.joinPieces names)⟩ := by
  have back : (names.map percentEncode).map segmentBytes = names := by
    rw [List.map_map]
    exact List.map_id'' segment_bytes_encode names
  have encoded : ∀ segment ∈ names.map percentEncode, ∃ name, Path.IsName name ∧
      segment = percentEncode name := by
    intro segment member
    obtain ⟨name, inNames, rfl⟩ := List.mem_map.mp member
    exact ⟨name, areNames name inNames, rfl⟩
  rw [to_path?_join_segments, back]
  · simpa using some
  · intro segment member c inside
    obtain ⟨name, -, rfl⟩ := encoded segment member
    exact is_segment_char_of_mem_encode inside
  · intro segment member
    obtain ⟨name, isName, rfl⟩ := encoded segment member
    exact (encode_of_is_name isName).1
  · intro segment member
    obtain ⟨name, isName, rfl⟩ := encoded segment member
    exact (encode_of_is_name isName).2

theorem components_close_drive {names : List Bytes} (areNames : ∀ name ∈ names, Path.IsName name)
    (some : names ≠ []) :
    Path.components ⟨closeDrive (Path.joinPieces names)⟩ = .root :: names.map .named := by
  rw [← Path.components_join_pieces areNames some]
  obtain ⟨first, others, rfl⟩ := List.exists_cons_of_ne_nil some
  rcases close_drive_cases (Path.joinPieces (first :: others)) with same | closed
  · rw [same]
  · rw [closed]
    exact Path.components_trailing (first ++ Path.joinPieces others)

theorem exists_of_path? {path : Path} {rest : Bytes} (absolute : path.bytes = Path.slash :: rest) :
    ∃ uri, ofPath? path = some uri := by
  obtain ⟨bytes⟩ := path
  obtain rfl : bytes = Path.slash :: rest := absolute
  rw [ofPath?, Path.components_absolute]
  cases ((Path.split [] rest).filter (!Path.isIdle ·)).map Path.stepOf with
  | nil => exact ⟨_, rfl⟩
  | cons step steps => exact ⟨_, rfl⟩

/-- The URI of a path without steps up names a path with the same steps. -/
theorem exists_to_path?_of_path? {path : Path} {rest : Bytes} {uri : Text}
    (absolute : path.bytes = Path.slash :: rest) (given : ofPath? path = some uri)
    (noParent : Path.Component.parent ∉ path.components) :
    ∃ named, toPath? uri = some named ∧ named.same path = true := by
  obtain ⟨bytes⟩ := path
  obtain rfl : bytes = Path.slash :: rest := absolute
  obtain ⟨names, components_eq, areNames⟩ := Path.exists_names noParent
  rw [ofPath?, components_eq] at given
  by_cases some : names = []
  · rw [some] at components_eq given
    cases given
    refine ⟨⟨[Path.slash]⟩, rfl, ?_⟩
    rw [Path.same, components_eq]
    rfl
  · have uri_eq : uri = "file://".toList ++ joinSegments (names.map percentEncode) := by
      obtain ⟨first, others, rfl⟩ := List.exists_cons_of_ne_nil some
      rw [List.map_cons, Option.some.injEq] at given
      rw [← given, joinSegments, List.flatMap_map, List.flatMap_cons, List.flatMap_cons,
        List.flatMap_map]
      rfl
    rw [uri_eq]
    refine ⟨_, to_path?_join_segments_encode some areNames, ?_⟩
    rw [Path.same, components_close_drive areNames some, components_eq]
    exact beq_self_eq_true _

/-! ### Paths that URIs name -/

theorem segments_ne_nil (kind : SchemeKind) (front text : Text) :
    segments kind front text ≠ [] := by
  induction text generalizing front with
  | nil => exact List.cons_ne_nil _ _
  | cons c rest induction =>
      rw [segments]
      split
      · exact List.cons_ne_nil _ _
      · split
        · exact List.cons_ne_nil _ _
        · exact induction _

theorem resolve_dots_ne_nil (kind : SchemeKind) (above : List Text) {names : List Text}
    (some : names ≠ []) : resolveDots kind above names ≠ [] := by
  induction names generalizing above with
  | nil => exact absurd rfl some
  | cons name names induction =>
      cases names with
      | nil =>
          rw [resolveDots]
          split
          · simp
          · split <;> simp
      | cons next names =>
          rw [resolveDots]
          · split
            · exact induction _ (List.cons_ne_nil _ _)
            · split
              · exact induction _ (List.cons_ne_nil _ _)
              · exact induction _ (List.cons_ne_nil _ _)
          · simp

theorem resolved_ne_nil (kind : SchemeKind) (text : Text) : resolved kind text ≠ [] :=
  resolve_dots_ne_nil kind [] (segments_ne_nil kind [] text)

theorem drop_empty_ne_nil {names : List Text} (some : names ≠ []) : dropEmpty names ≠ [] := by
  fun_induction dropEmpty names with
  | case1 segment rest induction => exact induction (List.cons_ne_nil _ _)
  | case2 names notEmpty => exact some

theorem ne_nil_of_file_path? {text : Text} {names : List Text}
    (read : filePath? text = some names) : names ≠ [] := by
  have afterHost : ∀ text names, pathAfterHost? text = some names → names ≠ [] := by
    intro text names read
    simp only [pathAfterHost?] at read
    split at read
    · cases read
      exact resolved_ne_nil _ _
    · split at read
      · cases read
        exact resolved_ne_nil _ _
      · split at read
        · cases read
          exact resolved_ne_nil _ _
        · cases read
  unfold filePath? at read
  split at read
  · split at read
    · obtain ⟨inner, found, rfl⟩ := Option.map_eq_some_iff.mp read
      exact drop_empty_ne_nil (afterHost _ _ found)
    · cases read
      exact drop_empty_ne_nil (resolved_ne_nil _ _)
  · cases read
    exact drop_empty_ne_nil (resolved_ne_nil _ _)

theorem ne_nil_of_web_path? {text : Text} {names : List Text} (read : webPath? text = some names) :
    names ≠ [] := by
  obtain ⟨path, -, found⟩ := Option.bind_eq_some_iff.mp read
  cases found
  exact resolved_ne_nil _ _

theorem ne_nil_of_other_path? {text : Text} {names : List Text}
    (read : otherPath? text = some names) : names ≠ [] := by
  unfold otherPath? at read
  split at read
  · obtain ⟨path, -, found⟩ := Option.bind_eq_some_iff.mp read
    split at found
    · cases found
    · cases found
      exact resolved_ne_nil _ _
  · cases read
    exact resolved_ne_nil _ _
  · cases read

/-- A URI names an absolute path. -/
theorem absolute_of_to_path? {uri : Text} {path : Path} (read : toPath? uri = some path) :
    ∃ rest, path.bytes = Path.slash :: rest := by
  have absolute : ∀ names : List Text, names ≠ [] → ∃ rest,
      closeDrive (names.flatMap fun segment => Path.slash :: segmentBytes segment) =
        Path.slash :: rest := by
    intro names some
    obtain ⟨first, others, rfl⟩ := List.exists_cons_of_ne_nil some
    rcases close_drive_cases ((first :: others).flatMap fun segment =>
      Path.slash :: segmentBytes segment) with same | closed
    · exact ⟨_, same⟩
    · exact ⟨_, closed⟩
  obtain ⟨⟨scheme, text⟩, -, read⟩ := Option.bind_eq_some_iff.mp read
  dsimp only at read
  split at read
  · obtain ⟨names, found, named⟩ := Option.bind_eq_some_iff.mp read
    cases named
    exact absolute names (ne_nil_of_file_path? found)
  · obtain ⟨names, found, named⟩ := Option.bind_eq_some_iff.mp read
    cases named
    exact absolute names (ne_nil_of_web_path? found)
  · obtain ⟨names, found, named⟩ := Option.bind_eq_some_iff.mp read
    cases named
    exact absolute names (ne_nil_of_other_path? found)

end Uri
end PhpNames
