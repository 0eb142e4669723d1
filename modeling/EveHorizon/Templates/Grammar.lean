import EveHorizon.Templates.Expr
import EveHorizon.Library.Checks

/-!
# The grammar of templates

The parser accepts exactly its grammar, and its parts can be printed and read again.
-/

namespace EveHorizon.Templates

open List Checks
open Text (isSpace trim)

def Head.text : Head → Text
  | .inputs => "inputs".toList
  | .eventPayload => "event.payload".toList

structure TemplateReference.WellFormed (reference : TemplateReference) : Prop where
  idents : ∀ segment ∈ reference.path, isIdent segment = true
  nonempty : reference.path ≠ []
  single : reference.head = .inputs → reference.path.length = 1
  raw : reference.raw = reference.head.text ++ '.' :: ['.'].intercalate reference.path

variable {body : Text} {segments : List Text}

theorem checkSegments_eq_ok : checkSegments body segments = .ok () ↔ ∀ segment ∈ segments, isIdent segment = true := by
  induction segments with
  | nil => simp [checkSegments]
  | cons segment rest ih =>
    rw [checkSegments, forall_mem_cons]
    split
    · next empty => simp [empty, isIdent]
    · split
      · next ident => rw [ih, and_iff_right ident]
      · next invalid => simp [invalid]

variable {rest : Text}

theorem splitHead_eq_some {head : Head} (split : splitHead body = some (head, rest)) :
    body = head.text ++ rest ∧ (rest = [] ∨ ∃ tail, rest = '.' :: tail) := by
  unfold splitHead at split
  split at split
  · next found =>
      cases split
      rcases found with rfl | found
      · exact ⟨rfl, .inl rfl⟩
      · obtain ⟨tail, rfl⟩ := isPrefixOf_iff_prefix.mp found
        exact ⟨rfl, .inr ⟨tail, rfl⟩⟩
  · split at split
    · next found =>
        cases split
        rcases found with rfl | found
        · exact ⟨rfl, .inl rfl⟩
        · obtain ⟨tail, rfl⟩ := isPrefixOf_iff_prefix.mp found
          exact ⟨rfl, .inr ⟨tail, rfl⟩⟩
    · cases split

theorem splitHead_text (head : Head) (tail : Text) :
    splitHead (head.text ++ '.' :: tail) = some (head, '.' :: tail) := by
  cases head with
  | inputs => exact if_pos (.inr rfl)
  | eventPayload => exact (if_neg (by rintro (same | found) <;> cases ‹_›)).trans (if_pos (.inr rfl))

variable {char : Char}

theorem isIdent_plain {segment : Text} (ident : isIdent segment = true)
    (member : char ∈ segment) : isIdentPart char = true := by
  cases segment with
  | nil => cases member
  | cons first rest =>
    rw [isIdent, Bool.and_eq_true, all_eq_true] at ident
    rcases mem_cons.mp member with rfl | later
    · rw [isIdentPart, ident.1]
      rfl
    · exact ident.2 char later

theorem parsePath_eq_ok {tail : Text} {path : List Text} : parsePath body ('.' :: tail) = .ok path ↔
      (∀ segment ∈ path, isIdent segment = true) ∧ path ≠ [] ∧ ['.'].intercalate path = tail := by
  rw [parsePath, if_neg (cons_ne_nil _ _), bind_eq_ok]
  constructor
  · rintro ⟨_, checked, ⟨⟩⟩
    exact ⟨checkSegments_eq_ok.mp checked, splitOn_ne_nil _ _, intercalate_splitOn _⟩
  · rintro ⟨idents, nonempty, rfl⟩
    have segments := splitOn_intercalate '.'
      (fun segment member dot => Bool.false_ne_true (isIdent_plain (idents segment member) dot)) nonempty
    exact ⟨(), checkSegments_eq_ok.mpr (by rwa [tail_cons, segments]), by rw [tail_cons, segments]; rfl⟩

variable {reference : TemplateReference}

theorem parseReference_eq_ok : parseReference body = .ok reference ↔ reference.WellFormed ∧ reference.raw = body := by
  constructor
  · intro parsed
    unfold parseReference at parsed
    split at parsed
    · cases parsed
    split at parsed
    · cases parsed
    next head rest found =>
    obtain ⟨path, read, counted⟩ := bind_eq_ok.mp parsed
    obtain ⟨same, rfl | ⟨tail, rfl⟩⟩ := splitHead_eq_some found
    · cases read
      cases head <;> cases counted
    · obtain ⟨idents, nonempty, joined⟩ := parsePath_eq_ok.mp read
      subst joined
      cases head with
      | inputs =>
        simp only at counted
        split at counted
        · cases counted
        · next single =>
            cases counted
            exact ⟨⟨idents, nonempty, fun _ => not_not.mp single, same⟩, rfl⟩
      | eventPayload =>
        simp only [length_eq_zero_iff, if_neg nonempty] at counted
        cases counted
        exact ⟨⟨idents, nonempty, nofun, same⟩, rfl⟩
  · rintro ⟨⟨idents, nonempty, single, raw⟩, rfl⟩
    obtain ⟨head, path, raw'⟩ := reference
    simp only at idents nonempty single raw ⊢
    subst raw
    have read : parsePath (head.text ++ '.' :: ['.'].intercalate path) _ = .ok path :=
      parsePath_eq_ok.mpr ⟨idents, nonempty, rfl⟩
    rw [parseReference, if_neg (by simp), splitHead_text]
    simp only [read]
    cases head with
    | inputs => exact if_neg (not_not.mpr (single rfl))
    | eventPayload => exact if_neg (mt length_eq_zero_iff.mp nonempty)

theorem isIdentPart_blank {blank : Char} (space : isSpace blank = true) : isIdentPart blank = false := by
  have blanks : ∀ code ∈ [0x09, 0x0A, 0x0B, 0x0C, 0x0D, 0x20, 0xA0, 0x1680, 0x2028, 0x2029, 0x202F, 0x205F, 0x3000,
      0xFEFF] ++ (List.range 11).map (0x2000 + ·), isIdentPart (Char.ofNat code) = false := by
    decide
  rw [← Char.ofNat_toNat blank]
  refine blanks _ ?_
  rw [isSpace, Bool.or_eq_true, contains_iff_mem, Bool.and_eq_true, decide_eq_true_iff, decide_eq_true_iff] at space
  rw [mem_append, mem_map]
  refine space.imp_right fun between => ⟨blank.toNat - 0x2000, mem_range.mpr ?_, ?_⟩ <;> omega

theorem mem_intercalate (member : char ∈ ['.'].intercalate segments) :
    (∃ segment ∈ segments, char ∈ segment) ∨ char = '.' := by
  induction segments with
  | nil => cases member
  | cons first rest ih =>
    by_cases last : rest = []
    · subst last
      exact .inl ⟨first, mem_cons_self, by simpa [List.intercalate] using member⟩
    · rw [intercalate_cons_of_ne_nil last, mem_append, mem_append] at member
      rcases member with (inFirst | dot) | later
      · exact .inl ⟨first, mem_cons_self, inFirst⟩
      · exact .inr (mem_singleton.mp dot)
      · exact (ih later).imp_left fun ⟨segment, listed, held⟩ => ⟨segment, mem_cons_of_mem _ listed, held⟩

theorem TemplateReference.WellFormed.plain (formed : reference.WellFormed)
    (member : char ∈ reference.raw) : isIdentPart char = true ∨ char = '.' := by
  rw [formed.raw, mem_append, mem_cons] at member
  rcases member with named | dot | listed
  · have heads : ∀ head : Head, (head.text.all fun char => isIdentPart char || char == '.') = true := by
      rintro (_ | _) <;> decide
    simpa using all_eq_true.mp (heads _) _ named
  · exact .inr dot
  · exact (mem_intercalate listed).imp_left fun ⟨segment, held, member⟩ => isIdent_plain (formed.idents _ held) member

theorem TemplateReference.WellFormed.visible (formed : reference.WellFormed)
    (member : char ∈ reference.raw) : isSpace char = false := by
  refine Bool.eq_false_iff.mpr fun blank => ?_
  rcases formed.plain member with ident | rfl
  · exact Bool.false_ne_true ((isIdentPart_blank blank).symm.trans ident)
  · cases blank

variable {left right : Text}

theorem trim_padded {raw : Text} (blank : ∀ blank ∈ left ++ right, isSpace blank = true)
    (visible : ∀ char ∈ raw, isSpace char = false) (present : raw ≠ []) :
    trim (left ++ raw ++ right) = raw := by
  obtain ⟨before, after⟩ := forall_mem_append.mp blank
  have kept : (raw ++ right).dropWhile isSpace = raw ++ right := by
    cases raw with
    | nil => exact absurd rfl present
    | cons first raw => simp [visible first]
  rw [trim, append_assoc, dropWhile_append_of_pos before, kept, List.rdropWhile, reverse_append,
    dropWhile_append_of_pos (by simpa using after), ← List.rdropWhile, rdropWhile_eq_self_iff]
  exact fun nonempty => by simp [visible _ (getLast_mem nonempty)]

theorem padded_trim (body : Text) :
    ∃ left right, (∀ blank ∈ left ++ right, isSpace blank = true) ∧ body = left ++ trim body ++ right := by
  refine ⟨body.takeWhile isSpace, (body.dropWhile isSpace).rtakeWhile isSpace, ?_, ?_⟩
  · exact forall_mem_append.mpr ⟨fun _ => mem_takeWhile_imp, fun _ => mem_rtakeWhile_imp⟩
  · rw [trim, append_assoc, rdropWhile_append_rtakeWhile, takeWhile_append_dropWhile]

inductive Grammar : Text → Prop where
  | nil : Grammar []
  | escaped {rest : Text} : Grammar rest → Grammar ('\\' :: '$' :: rest)
  | literal {char : Char} {rest : Text} :
      ¬(char = '$' ∧ rest.head? = some '\x7b') → Grammar rest → Grammar (char :: rest)
  | reference {left right rest : Text} {reference : TemplateReference} :
      (∀ blank ∈ left ++ right, isSpace blank = true) → reference.WellFormed → Grammar rest →
      Grammar ('$' :: '\x7b' :: (left ++ reference.raw ++ right) ++ '\x7d' :: rest)

theorem readParts_body {inside : Text} (open' : '\x7d' ∉ inside) :
    readParts (.reference body) (inside ++ '\x7d' :: rest) = (do
      let reference ← parseReference (trim (body ++ inside))
      let parts ← readParts (.literal []) rest
      return .ref reference :: parts) := by
  induction inside generalizing body with
  | nil => rw [nil_append, readParts, if_pos rfl, append_nil]
  | cons char inside ih =>
    rw [mem_cons, not_or] at open'
    rw [cons_append, readParts, if_neg (Ne.symm open'.1), ih open'.2, append_assoc, singleton_append]

variable {buffer : Text}

theorem readParts_step (escape : ¬(char = '\\' ∧ rest.head? = some '$'))
    (opening : ¬(char = '$' ∧ rest.head? = some '\x7b')) :
    readParts (.literal buffer) (char :: rest) = readParts (.literal (buffer ++ [char])) rest := by
  rw [readParts]
  · rintro after rfl rfl
    exact escape ⟨rfl, rfl⟩
  · rintro after rfl rfl
    exact opening ⟨rfl, rfl⟩

theorem readParts_run {run : Text} (plain : ∀ char ∈ run, char ≠ '\\' ∧ char ≠ '$') :
    readParts (.literal buffer) (run ++ rest) = readParts (.literal (buffer ++ run)) rest := by
  induction run generalizing buffer with
  | nil => rw [nil_append, append_nil]
  | cons char run ih =>
    obtain ⟨first, later⟩ := forall_mem_cons.mp plain
    rw [cons_append, readParts_step (fun same => first.1 same.1) (fun same => first.2 same.1), ih later,
      append_assoc, singleton_append]

/-- Nothing in a reference is read as anything but its text. -/
theorem padded_plain (blank : ∀ blank ∈ left ++ right, isSpace blank = true) (formed : reference.WellFormed) :
    ∀ char ∈ left ++ reference.raw ++ right, char ≠ '\\' ∧ char ≠ '$' ∧ char ≠ '\x7d' := by
  intro char member
  rw [append_assoc, mem_append, mem_append, or_left_comm, ← mem_append] at member
  rcases member with held | padding
  · rcases formed.plain held with ident | rfl
    · refine ⟨?_, ?_, ?_⟩ <;> rintro rfl <;> cases ident
    · decide
  · have space := blank char padding
    refine ⟨?_, ?_, ?_⟩ <;> rintro rfl <;> cases space

theorem readParts_reference (blank : ∀ blank ∈ left ++ right, isSpace blank = true)
    (formed : reference.WellFormed) :
    readParts (.literal buffer) ('$' :: '\x7b' :: (left ++ reference.raw ++ right) ++ '\x7d' :: rest) = (do
      let parts ← readParts (.literal []) rest
      return literalPart buffer ++ .ref reference :: parts) := by
  have present : reference.raw ≠ [] := by simp [formed.raw]
  have parsed : parseReference (trim ([] ++ (left ++ reference.raw ++ right))) = .ok reference := by
    rw [nil_append, trim_padded blank (fun _ => formed.visible) present]
    exact parseReference_eq_ok.mpr ⟨formed, rfl⟩
  rw [cons_append, cons_append, readParts,
    readParts_body fun closed => (padded_plain blank formed _ closed).2.2 rfl, parsed]
  cases readParts (.literal []) rest <;> rfl

theorem Grammar.parses {text : Text} (grammar : Grammar text) :
    (∀ buffer, ∃ parts, readParts (.literal buffer) text = .ok parts) ∧
      ∀ rest, text = '$' :: rest → ∀ buffer, ∃ parts, readParts (.literal buffer) rest = .ok parts := by
  induction grammar with
  | nil => exact ⟨fun _ => ⟨_, by rw [readParts]⟩, nofun⟩
  | escaped _ ih => exact ⟨fun buffer => by rw [readParts]; exact ih.1 _, nofun⟩
  | @literal char rest opening _ ih =>
    refine ⟨fun buffer => ?_, fun _ same buffer => by cases same; exact ih.1 buffer⟩
    by_cases escape : char = '\\' ∧ rest.head? = some '$'
    · obtain ⟨rfl, dollar⟩ := escape
      obtain ⟨after, rfl⟩ := head?_eq_some_iff.mp dollar
      rw [readParts]
      exact ih.2 after rfl _
    · rw [readParts_step escape opening]
      exact ih.1 _
  | @reference left right _ reference blank formed _ ih =>
    constructor
    · intro buffer
      obtain ⟨parts, read⟩ := ih.1 []
      rw [readParts_reference blank formed, read]
      exact ⟨_, rfl⟩
    · intro _ same buffer
      cases same
      obtain ⟨parts, read⟩ := ih.1 (buffer ++ ('\x7b' :: (left ++ reference.raw ++ right) ++ ['\x7d']))
      refine ⟨parts, ?_⟩
      have plain : ∀ char ∈ '\x7b' :: (left ++ reference.raw ++ right) ++ ['\x7d'],
          char ≠ '\\' ∧ char ≠ '$' := by
        intro char member
        rw [mem_append, mem_cons, mem_singleton] at member
        rcases member with (rfl | held) | rfl
        · decide
        · exact (padded_plain blank formed char held).imp_right And.left
        · decide
      rw [← readParts_run plain] at read
      rw [← read]
      simp

def Reading.Continues : Reading → Text → Prop
  | .literal _, text => Grammar text
  | .reference body, text => ∃ inside rest reference, text = inside ++ '\x7d' :: rest ∧
      parseReference (trim (body ++ inside)) = .ok reference ∧ Grammar rest

variable {parts : List Part} {reading : Reading} {text : Text}

theorem readParts_continues (read : readParts reading text = .ok parts) : reading.Continues text := by
  fun_induction readParts reading text generalizing parts with
  | case1 => exact .nil
  | case2 held rest ih => exact .escaped (ih read)
  | case3 held rest ih =>
    obtain ⟨parts, read, -⟩ := bind_eq_ok.mp read
    obtain ⟨inside, after, reference, rfl, parsed, grammar⟩ := ih read
    obtain ⟨formed, raw⟩ := parseReference_eq_ok.mp parsed
    obtain ⟨left, right, blank, padded⟩ := padded_trim inside
    rw [nil_append] at raw
    rw [← raw] at padded
    subst padded
    exact .reference blank formed grammar
  | case4 held char rest escape opening ih =>
    refine .literal (fun open' => ?_) (ih read)
    obtain ⟨after, rfl⟩ := head?_eq_some_iff.mp open'.2
    exact opening after open'.1 rfl
  | case5 => cases read
  | case6 body rest ih =>
    obtain ⟨reference, parsed, read⟩ := bind_eq_ok.mp read
    obtain ⟨parts, read, -⟩ := bind_eq_ok.mp read
    exact ⟨[], rest, reference, rfl, by rwa [append_nil], ih read⟩
  | case7 body char rest open' ih =>
    obtain ⟨inside, after, reference, rfl, parsed, grammar⟩ := ih read
    exact ⟨char :: inside, after, reference, rfl, by rwa [append_assoc] at parsed, grammar⟩

def escape (value : Text) : Text :=
  value.flatMap fun char => if char = '$' then ['\\', '$'] else [char]

def printPart : Part → Text
  | .literal value => escape value
  | .ref reference => '$' :: '\x7b' :: reference.raw ++ ['\x7d']

def printParts (parts : List Part) : Text := parts.flatMap printPart

/-- What the parser returns: literals are not empty, stand apart, and escape no reference. -/
inductive Canonical : List Part → Prop where
  | nil : Canonical []
  | last {value : Text} : value ≠ [] → Canonical [.literal value]
  | ref {reference : TemplateReference} {rest : List Part} :
      reference.WellFormed → Canonical rest → Canonical (.ref reference :: rest)
  | literal {value : Text} {reference : TemplateReference} {rest : List Part} :
      value ≠ [] → value.getLast? ≠ some '\\' → Canonical (.ref reference :: rest) →
      Canonical (.literal value :: .ref reference :: rest)

theorem readParts_canonical (read : readParts reading text = .ok parts)
    (apart : ∀ buffer, reading = .literal buffer → text.head? = some '$' → buffer.getLast? ≠ some '\\') :
    Canonical parts ∧ ∀ body, reading = .reference body → ∃ reference rest, parts = .ref reference :: rest := by
  fun_induction readParts reading text generalizing parts with
  | case1 buffer =>
    cases read
    refine ⟨?_, nofun⟩
    unfold literalPart
    split
    · exact .nil
    · next present => exact .last present
  | case2 buffer rest ih => exact ⟨(ih read (by rintro _ ⟨⟩ _; simp)).1, nofun⟩
  | case3 buffer rest ih =>
    obtain ⟨parts, inside, ⟨⟩⟩ := bind_eq_ok.mp read
    obtain ⟨canonical, starts⟩ := ih inside nofun
    obtain ⟨reference, rest, rfl⟩ := starts _ rfl
    refine ⟨?_, nofun⟩
    unfold literalPart
    split
    · exact canonical
    · next present => exact .literal present (apart buffer rfl rfl) canonical
  | case4 buffer char rest notEscape opening ih =>
    refine ⟨(ih read ?_).1, nofun⟩
    rintro _ ⟨⟩ dollar
    obtain ⟨after, rfl⟩ := head?_eq_some_iff.mp dollar
    rw [getLast?_concat, ne_eq, Option.some.injEq]
    exact fun same => notEscape after same rfl
  | case5 => cases read
  | case6 body rest ih =>
    obtain ⟨reference, parsed, read⟩ := bind_eq_ok.mp read
    obtain ⟨parts, after, ⟨⟩⟩ := bind_eq_ok.mp read
    exact ⟨.ref (parseReference_eq_ok.mp parsed).1 (ih after (by rintro _ ⟨⟩; simp)).1, fun _ _ => ⟨_, _, rfl⟩⟩
  | case7 body char rest open' ih =>
    obtain ⟨canonical, starts⟩ := ih read nofun
    exact ⟨canonical, fun _ _ => starts _ rfl⟩

theorem readParts_escape {value : Text} (apart : rest.head? = some '$' → value.getLast? ≠ some '\\') :
    readParts (.literal buffer) (escape value ++ rest) = readParts (.literal (buffer ++ value)) rest := by
  induction value generalizing buffer with
  | nil => rw [escape, flatMap_nil, nil_append, append_nil]
  | cons char value ih =>
    have later : rest.head? = some '$' → value.getLast? ≠ some '\\' := by
      intro dollar last
      refine apart dollar ?_
      rw [getLast?_cons, last]
      rfl
    rw [escape, flatMap_cons, ← escape, append_assoc, append_cons buffer]
    by_cases dollar : char = '$'
    · subst dollar
      rw [if_pos rfl, cons_append, cons_append, nil_append, readParts, ih later]
    · rw [if_neg dollar, singleton_append, readParts_step ?_ fun opening => dollar opening.1, ih later]
      rintro ⟨rfl, opens⟩
      cases value with
      | nil => exact apart opens rfl
      | cons next value =>
        rw [escape, flatMap_cons] at opens
        split at opens
        · cases opens
        · next other => exact other (Option.some.inj opens)

theorem read_printed (canonical : Canonical parts) : readParts (.literal []) (printParts parts) = .ok parts := by
  induction canonical with
  | nil => rfl
  | @last value present =>
    have read : readParts (.literal []) (escape value ++ []) = _ := readParts_escape nofun
    rw [append_nil, nil_append, readParts, literalPart, if_neg present] at read
    rw [printParts, flatMap_singleton, printPart, read]
  | @ref reference rest formed _ ih =>
    have read : readParts (.literal []) ('$' :: '\x7b' :: ([] ++ reference.raw ++ []) ++ '\x7d' :: printParts rest) =
      _ :=
      readParts_reference (by simp) formed
    rw [ih, nil_append, append_nil] at read
    rw [printParts, flatMap_cons, ← printParts, printPart, append_assoc]
    exact read
  | @literal _ reference rest present ending _ ih =>
    rw [printParts, flatMap_cons, ← printParts, printPart, readParts_escape fun _ => ending, nil_append]
    have opens : printParts (.ref reference :: rest) =
        '$' :: '\x7b' :: (reference.raw ++ ['\x7d'] ++ printParts rest) := rfl
    rw [opens, readParts] at ih ⊢
    obtain ⟨parts, read, same⟩ := bind_eq_ok.mp ih
    rw [read]
    cases same
    rw [literalPart, if_neg present]
    rfl

structure ParsedTemplate where
  parts : List Part
  refs : List TemplateReference
  singleRef : Bool

structure Scan where
  parts : List Part := []
  refs : List TemplateReference := []
  refCount : Nat := 0
  nonRefLiteralLen : Nat := 0

variable (scan : Scan)

def Scan.flush (buf : Text) : Scan :=
  if buf.length > 0 then
    { scan with parts := scan.parts ++ [.literal buf], nonRefLiteralLen := scan.nonRefLiteralLen + buf.length }
  else scan

def Scan.push (ref : TemplateReference) : Scan :=
  { scan with
    parts := scan.parts ++ [.ref ref]
    refs := scan.refs ++ [ref]
    refCount := scan.refCount + 1 }

def scanTemplate (scan : Scan) : Reading → Text → Except Text ParsedTemplate
  | .literal buf, [] =>
    let { parts, refs, refCount, nonRefLiteralLen } := scan.flush buf
    .ok { parts, refs, singleRef := refCount == 1 && nonRefLiteralLen == 0 }
  | .literal buf, '\\' :: '$' :: rest => scanTemplate scan (.literal (buf ++ ['$'])) rest
  | .literal buf, '$' :: '\x7b' :: rest => scanTemplate (scan.flush buf) (.reference []) rest
  | .literal buf, char :: rest => scanTemplate scan (.literal (buf ++ [char])) rest
  | .reference _, [] => .error ("Unterminated ".toList ++ quoted ['$', '\x7b'] ++ " in template".toList)
  | .reference body, char :: rest =>
    if char = '\x7d' then do
      let ref ← parseReference (trim body)
      scanTemplate (scan.push ref) (.literal []) rest
    else scanTemplate scan (.reference (body ++ [char])) rest

def literalLength (parts : List Part) : Nat :=
  (parts.map fun
    | .literal value => value.length
    | .ref _ => 0).sum

def Scan.finish (parts : List Part) : ParsedTemplate where
  parts := scan.parts ++ parts
  refs := scan.refs ++ references parts
  singleRef := scan.refCount + (references parts).length == 1 && scan.nonRefLiteralLen + literalLength parts == 0

theorem Scan.finish_flush (buf : Text) (parts : List Part) :
    (scan.flush buf).finish parts = scan.finish (literalPart buf ++ parts) := by
  unfold flush literalPart
  cases buf with
  | nil => rfl
  | cons first buf => simp [finish, references, literalLength, Nat.add_assoc]

theorem scanTemplate_eq (reading : Reading) (text : Text) :
    scanTemplate scan reading text = (readParts reading text).map scan.finish := by
  fun_induction scanTemplate scan reading text with
  | case1 scan buf parts refs refCount nonRefLiteralLen flushed =>
    have same := scan.finish_flush buf []
    rw [append_nil] at same
    rw [readParts, Except.map, ← same]
    simp [Scan.finish, references, literalLength, flushed]
  | case2 scan buf rest ih => rw [readParts, ih]
  | case3 scan buf rest ih =>
    rw [readParts, ih]
    cases readParts (.reference []) rest with
    | error message => rfl
    | ok parts => exact congrArg Except.ok (scan.finish_flush buf parts)
  | case4 scan buf char rest notEscape opening ih => rw [readParts, ih] <;> assumption
  | case5 => rfl
  | case6 scan body rest ih =>
    rw [readParts, if_pos rfl]
    cases parseReference (trim body) with
    | error message => rfl
    | ok ref =>
      simp only [bind, Except.bind, ih]
      cases readParts (.literal []) rest with
      | error message => rfl
      | ok parts =>
        simp [Except.map, Scan.finish, Scan.push, references, literalLength, Nat.add_assoc, Nat.add_comm 1, pure,
          Except.pure]
  | case7 scan body char rest open' ih => rw [readParts, if_neg open', ih]

theorem Canonical.single_iff (canonical : Canonical parts) :
    ((references parts).length = 1 ∧ literalLength parts = 0) ↔ ∃ reference, parts = [.ref reference] := by
  constructor
  · rintro ⟨one, none⟩
    cases canonical with
    | nil => cases one
    | last present => cases one
    | @ref reference rest _ canonical =>
      have empty : rest = [] := by
        cases canonical with
        | nil => rfl
        | last present => simp_all [literalLength]
        | ref formed canonical => simp_all [references]
        | literal present ending canonical => simp_all [literalLength]
      exact ⟨reference, by rw [empty]⟩
    | literal present ending canonical => simp_all [literalLength]
  · rintro ⟨reference, rfl⟩
    exact ⟨rfl, rfl⟩

theorem Canonical.formed (canonical : Canonical parts) : ∀ reference ∈ references parts, reference.WellFormed := by
  induction canonical with
  | nil => nofun
  | last present => nofun
  | ref formed _ ih => exact forall_mem_cons.mpr ⟨formed, ih⟩
  | literal present ending _ ih => exact ih

/-- The parser accepts its grammar, and what it returns can be printed and read again. -/
theorem template_grammar (input : Text) :
    ((∃ template, scanTemplate {} (.literal []) input = .ok template) ↔ Grammar input) ∧
    ∀ template, scanTemplate {} (.literal []) input = .ok template →
      scanTemplate {} (.literal []) (printParts template.parts) = .ok template ∧
      (∀ reference ∈ template.refs, reference.WellFormed) ∧ template.refs = references template.parts ∧
      (template.singleRef = true ↔ ∃ reference, template.parts = [.ref reference]) := by
  constructor
  · rw [scanTemplate_eq]
    constructor
    · rintro ⟨template, scanned⟩
      cases read : readParts (.literal []) input with
      | error message =>
        rw [read] at scanned
        cases scanned
      | ok parts => exact readParts_continues read
    · intro grammar
      obtain ⟨parts, read⟩ := grammar.parses.1 []
      exact ⟨_, by rw [read]; rfl⟩
  · intro template scanned
    rw [scanTemplate_eq] at scanned ⊢
    cases read : readParts (.literal []) input with
    | error message =>
      rw [read] at scanned
      cases scanned
    | ok parts =>
      rw [read] at scanned
      cases scanned
      obtain ⟨canonical, -⟩ := readParts_canonical read (by rintro _ ⟨⟩ _; simp)
      refine ⟨?_, canonical.formed, rfl, ?_⟩
      · exact congrArg (Except.map _) (read_printed canonical)
      · exact Iff.trans (by simp [Scan.finish]) canonical.single_iff

end EveHorizon.Templates
