import Rs2Runtime.Text.Basic

/-!
Contract: the host that a web URL parser reads from an absolute `http` or `https` URL.

Owns:
- the preprocessing of the input: trailing controls and spaces are cut, tabs and line
  breaks are dropped;
- the authority of a special scheme: leading slashes and backslashes are skipped, and a
  slash, a backslash, a question mark or a number sign ends it;
- credentials, port and host text;
- the division of a URL's text at its generic delimiters, and when the parser follows it.

Does not own: the host parser itself (international names, numeric addresses), which is a
parameter, or the path, query and fragment of the URL.
-/

namespace Rs2Runtime.Text.WebUrl

/-- A tab, line feed or carriage return, dropped wherever it stands. -/
def isDropped (c : Char) : Bool :=
  c == '\t' || c == '\n' || c == '\r'

/-- A C0 control or a space, cut from both ends of the input. -/
def isTrimmed (c : Char) : Bool :=
  c.toNat ≤ 0x20

/-- The input after preprocessing. -/
def preprocess (url : Str) : Str :=
  (trimMatches isTrimmed url).filter fun c => !isDropped c

/-- A slash in the sense of a special scheme. -/
def isSlash (c : Char) : Bool :=
  c == '/' || c == '\\'

/-- The characters that end an authority. -/
def endsAuthority (c : Char) : Bool :=
  isSlash c || c == '?' || c == '#'

/-- The text after the scheme of a special URL. -/
def afterScheme (url : Str) : Option Str :=
  (stripStart "http:" url).or (stripStart "https:" url)

/-- The authority of what follows the scheme. -/
def authority (rest : Str) : Str :=
  (rest.dropWhile isSlash).takeWhile fun c => !endsAuthority c

/-- Split host text from port text at the first colon outside brackets. -/
def splitPort : Bool → Str → Str × Option Str
  | _, [] => ([], none)
  | inBrackets, c :: cs =>
    if c = ':' ∧ !inBrackets then
      ([], some cs)
    else
      let split := splitPort (if c = '[' then true else if c = ']' then false else inBrackets) cs
      (c :: split.1, split.2)

/-- A port is absent, empty, or a decimal below `2 ^ 16`. -/
def isPort (port : Option Str) : Bool :=
  match port with
  | none => true
  | some digits => digits.all Char.isDigit && Nat.ofDigitChars 10 digits 0 < 65536

/-- The host a URL names; none where the URL is refused. -/
def host (parseHost : Str → Option Str) (url : Str) : Option Str :=
  (afterScheme (preprocess url)).bind fun rest =>
    let split := splitPort false ((authority rest).rtakeWhile (· ≠ '@'))
    if split.1 ≠ [] ∧ isPort split.2 then parseHost split.1 else none

/-! ## Texts with nothing to preprocess or to skip -/

/-- The characters of a host text that no step of the parser acts on. -/
def isPlain (c : Char) : Bool :=
  !isTrimmed c && !endsAuthority c && c != '@' && c != ':' && c != '[' && c != ']'

theorem not_isDropped_of_not_isTrimmed {c : Char} (kept : isTrimmed c = false) :
    isDropped c = false := by
  have large : 0x20 < c.toNat := by
    simpa [isTrimmed] using kept
  have tab : c ≠ '\t' := by
    rintro rfl
    exact absurd large (by decide)
  have feed : c ≠ '\n' := by
    rintro rfl
    exact absurd large (by decide)
  have ret : c ≠ '\r' := by
    rintro rfl
    exact absurd large (by decide)
  simp [isDropped, tab, feed, ret]

/-- Preprocessing leaves a text alone up to a part that begins with a character it keeps. -/
theorem preprocess_append {front rest : Str} (kept : ∀ c ∈ front, isTrimmed c = false)
    (ends : ∀ c, rest.head? = some c → isTrimmed c = false) :
    ∃ later, preprocess (front ++ rest) = front ++ later ∧ later.head? = rest.head? := by
  have first : (front ++ rest).dropWhile isTrimmed = front ++ rest := by
    cases front with
    | cons c cs => simp [kept c List.mem_cons_self]
    | nil =>
      cases rest with
      | nil => rfl
      | cons c cs => simp [ends c rfl]
  have last : ∃ later, (front ++ rest).rdropWhile isTrimmed = front ++ later ∧
      later.head? = rest.head? := by
    clear first
    induction rest using List.reverseRecOn with
    | nil =>
      refine ⟨[], ?_, rfl⟩
      rw [List.append_nil, List.rdropWhile_eq_self_iff]
      intro nonempty
      simp [kept _ (List.getLast_mem nonempty)]
    | append_singleton initial c ih =>
      rw [← List.append_assoc, List.rdropWhile_concat]
      by_cases cut : isTrimmed c = true
      · cases initial with
        | nil => simp [ends c rfl] at cut
        | cons head tail =>
          rw [if_pos cut]
          exact ih fun d isHead => ends d isHead
      · rw [if_neg cut]
        exact ⟨initial ++ [c], List.append_assoc _ _ _, rfl⟩
  obtain ⟨later, trimmed, head⟩ := last
  have all : ∀ c ∈ front, !isDropped c := by
    intro c member
    simp [not_isDropped_of_not_isTrimmed (kept c member)]
  refine ⟨later.filter fun c => !isDropped c, ?_, ?_⟩
  · rw [preprocess, trimMatches, first, trimmed, List.filter_append, List.filter_eq_self.mpr all]
  · rw [← head] at ends ⊢
    cases later with
    | nil => rfl
    | cons c cs => simp [not_isDropped_of_not_isTrimmed (ends c rfl)]

/-- A host text without brackets ends at the first colon. -/
theorem splitPort_append {text port : Str} (free : ∀ c ∈ text, c ≠ ':' ∧ c ≠ '[' ∧ c ≠ ']')
    (starts : port = [] ∨ port.head? = some ':') :
    ∃ split, splitPort false (text ++ port) = (text, split) ∧
      isPort split = isPort (some port.tail) := by
  induction text with
  | nil =>
    cases port with
    | nil => exact ⟨none, rfl, rfl⟩
    | cons c digits =>
      have colon : c = ':' := by simpa using starts
      exact ⟨some digits, by simp [splitPort, colon], rfl⟩
  | cons c cs ih =>
    obtain ⟨split, tail, same⟩ := ih fun d member => free d (List.mem_cons_of_mem c member)
    obtain ⟨colon, opening, closing⟩ := free c List.mem_cons_self
    exact ⟨split, by simp [splitPort, colon, opening, closing, tail], same⟩

/-! ## The parts of a URL -/

/-- A generic delimiter of the authority. -/
def isDelimiter (c : Char) : Bool :=
  c == '/' || c == '?' || c == '#'

/-- An absolute URL as its text is divided: a scheme, credentials up to an `@`, a host, a port
from a colon on, and the rest from a delimiter on. -/
structure Parts where
  scheme : Str
  credentials : Str
  host : Str
  port : Str
  rest : Str
  isScheme : scheme = "http://" ∨ scheme = "https://"
  closed : credentials = [] ∨ credentials.getLast? = some '@'
  undelimited : ∀ c ∈ credentials ++ (host ++ port), isDelimiter c = false
  named : host ≠ []
  unmarked : '@' ∉ host ++ port
  colonless : ':' ∉ host
  ported : port = [] ∨ port.head? = some ':'
  delimited : ∀ c, rest.head? = some c → isDelimiter c = true

namespace Parts

variable (parts : Parts)

def authority : Str :=
  parts.credentials ++ (parts.host ++ parts.port)

def text : Str :=
  parts.scheme ++ (parts.authority ++ parts.rest)

/-- The authority has no control, space or backslash, and the host no bracket. -/
def Quiet : Prop :=
  (∀ c ∈ parts.authority, isTrimmed c = false ∧ c ≠ '\\') ∧ '[' ∉ parts.host ∧ ']' ∉ parts.host

theorem rtakeWhile_authority :
    parts.authority.rtakeWhile (· ≠ '@') = parts.host ++ parts.port := by
  have free : (parts.host ++ parts.port).reverse.takeWhile (· ≠ '@') =
      (parts.host ++ parts.port).reverse :=
    takeWhile_ne_of_not_mem fun member => parts.unmarked (List.mem_reverse.mp member)
  rw [List.rtakeWhile, authority, List.reverse_append]
  rcases parts.closed with none_ | mark
  · rw [none_, List.reverse_nil, List.append_nil, free, List.reverse_reverse]
  · obtain ⟨initial, isInitial⟩ := List.getLast?_eq_some_iff.mp mark
    rw [isInitial, List.reverse_concat, takeWhile_append_cons (by decide), free,
      List.reverse_reverse]

theorem takeWhile_text {stops : Char → Bool} (none_ : ∀ c ∈ parts.authority, stops c = false)
    (rest : Str) (starts : ∀ c, rest.head? = some c → stops c = true) :
    (parts.authority ++ rest).takeWhile (fun c => !stops c) = parts.authority := by
  rw [List.takeWhile_append_of_pos (by simpa using none_)]
  cases rest with
  | nil => simp
  | cons c cs => simp [starts c rfl]

theorem takeWhile_host : (parts.host ++ parts.port).takeWhile (· ≠ ':') = parts.host := by
  rcases parts.ported with none_ | colon
  · rw [none_, List.append_nil, takeWhile_ne_of_not_mem parts.colonless]
  · obtain ⟨digits, isPort⟩ := List.head?_eq_some_iff.mp colon
    rw [isPort, takeWhile_append_cons (by decide), takeWhile_ne_of_not_mem parts.colonless]

/-- Every text behind a scheme is divided so, if there is anything between its delimiters. -/
theorem exists_text {scheme : Str} (isScheme : scheme = "http://" ∨ scheme = "https://")
    (behind : Str)
    (named : ((behind.takeWhile fun c => !isDelimiter c).rtakeWhile (· ≠ '@')).takeWhile
      (· ≠ ':') ≠ []) :
    ∃ parts : Parts, parts.text = scheme ++ behind := by
  have before := @List.takeWhile_append_dropWhile _ (fun c => !isDelimiter c) behind
  generalize isAuthority : behind.takeWhile (fun c => !isDelimiter c) = authority at named before
  have marked := @List.rdropWhile_append_rtakeWhile _ (fun c => decide (c ≠ '@')) authority
  generalize isHostPort : authority.rtakeWhile (· ≠ '@') = hostPort at named marked
  have colon := @List.takeWhile_append_dropWhile _ (fun c => decide (c ≠ ':')) hostPort
  have whole : authority.rdropWhile (· ≠ '@') ++ (hostPort.takeWhile (· ≠ ':') ++
      hostPort.dropWhile (· ≠ ':')) = authority := by
    rw [colon, marked]
  refine ⟨⟨scheme, authority.rdropWhile (· ≠ '@'), hostPort.takeWhile (· ≠ ':'),
    hostPort.dropWhile (· ≠ ':'), behind.dropWhile fun c => !isDelimiter c, isScheme, ?_, ?_, named,
    ?_, ?_, ?_, ?_⟩, ?_⟩
  · refine or_iff_not_imp_left.mpr fun some_ => ?_
    have last := List.rdropWhile_last_not (fun c => decide (c ≠ '@')) authority some_
    rw [List.getLast?_eq_some_getLast some_]
    simpa using last
  · intro c member
    rw [whole, ← isAuthority] at member
    simpa using List.mem_takeWhile_imp member
  · intro member
    rw [colon, ← isHostPort, List.rtakeWhile, List.mem_reverse] at member
    simpa using List.mem_takeWhile_imp member
  · intro member
    simpa using List.mem_takeWhile_imp member
  · refine or_iff_not_imp_left.mpr fun some_ => ?_
    have first := List.head_dropWhile_not (fun c => decide (c ≠ ':')) some_
    rw [List.head?_eq_some_head some_]
    simpa using first
  · intro c isHead
    have some_ : behind.dropWhile (fun c => !isDelimiter c) ≠ [] := by
      intro none_
      rw [none_, List.head?_nil] at isHead
      cases isHead
    have first := List.head_dropWhile_not (fun c => !isDelimiter c) some_
    rw [List.head?_eq_some_head some_, Option.some.injEq] at isHead
    rw [← isHead]
    simpa using first
  · exact congrArg (scheme ++ ·) ((congrArg (· ++ _) whole).trans before)

/-- The parser reads a quiet authority as it is divided. -/
theorem host_of_quiet (parseHost : Str → Option Str) (quiet : parts.Quiet) :
    WebUrl.host parseHost parts.text =
      if isPort (some parts.port.tail) then parseHost parts.host else none := by
  obtain ⟨kept, opening, closing⟩ := quiet
  have undelimited : ∀ c ∈ parts.authority, endsAuthority c = false := by
    intro c member
    have none_ := parts.undelimited c member
    simp only [isDelimiter, Bool.or_eq_false_iff] at none_
    simp [endsAuthority, isSlash, none_.1.1, none_.1.2, none_.2, (kept c member).2]
  have untrimmed : ∀ c, isDelimiter c = true → isTrimmed c = false ∧ endsAuthority c = true := by
    intro c ends
    simp only [isDelimiter, Bool.or_eq_true, beq_iff_eq] at ends
    rcases ends with (rfl | rfl) | rfl <;> decide
  have front : ∀ c ∈ parts.scheme ++ parts.authority, isTrimmed c = false := by
    intro c member
    rcases List.mem_append.mp member with inScheme | inside
    · have plain : parts.scheme.all (fun c => !isTrimmed c) = true := by
        rcases parts.isScheme with isScheme | isScheme <;> rw [isScheme] <;> decide
      simpa using List.all_eq_true.mp plain c inScheme
    · exact (kept c inside).1
  obtain ⟨rest, preprocessed, head⟩ := preprocess_append front fun c isHead =>
    (untrimmed c (parts.delimited c isHead)).1
  have cut := parts.takeWhile_text undelimited rest fun c isHead =>
    (untrimmed c (parts.delimited c (head ▸ isHead))).2
  have skipped : (("//" : Str) ++ (parts.authority ++ rest)).dropWhile isSlash =
      parts.authority ++ rest := by
    cases shape : parts.authority with
    | nil =>
      rw [authority, List.append_eq_nil_iff, List.append_eq_nil_iff] at shape
      exact absurd shape.2.1 parts.named
    | cons c cs =>
      have plain := undelimited c (by rw [shape]; exact List.mem_cons_self)
      simp only [endsAuthority, Bool.or_eq_false_iff] at plain
      have slash : isSlash '/' = true := by decide
      simp [slash, plain.1.1]
  have after : afterScheme (parts.scheme ++ parts.authority ++ rest) =
      some (("//" : Str) ++ (parts.authority ++ rest)) := by
    rcases parts.isScheme with isScheme | isScheme <;> rw [isScheme] <;>
      simp [afterScheme, stripStart]
  obtain ⟨split, isSplit, same⟩ := splitPort_append
    (fun c member => ⟨fun colon => parts.colonless (colon ▸ member),
      fun bracket => opening (bracket ▸ member), fun bracket => closing (bracket ▸ member)⟩)
    parts.ported
  rw [WebUrl.host, text, ← List.append_assoc, preprocessed, after, Option.bind_some,
    WebUrl.authority, skipped, cut, rtakeWhile_authority, isSplit, ← same]
  simp only [ne_eq, parts.named, not_false_eq_true, true_and]

end Parts

end Rs2Runtime.Text.WebUrl
