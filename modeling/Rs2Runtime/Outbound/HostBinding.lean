import Rs2Runtime.Outbound.Dispatch

/-!
Contract: which call URLs are contacted under hosts that their grant allows.

Owns:
- the host that is checked, as the host part of a URL's text;
- the exact condition under which classification does not panic and a grant that lets a URL
  through allows every host the transport connects to;
- ordinary URLs are read alike by the check and the transport.

Does not own: the host parser of the transport, or where answers redirect to.
-/

namespace Rs2Runtime.Outbound

open Text

/-! ## One reading of the URL for both checks -/

/-- The adapter sends the URL, without a question mark that ends it. -/
theorem adapterUrl_cases (url : Str) :
    adapterUrl (MsgUrl.parse url) = url ∨ url = adapterUrl (MsgUrl.parse url) ++ ['?'] := by
  cases cut : splitOnce ['?'] url with
  | none => simp [adapterUrl, MsgUrl.parse, cut]
  | some pair =>
    have whole := splitOnce_append cut
    by_cases empty : pair.2 = []
    · right
      simpa [adapterUrl, MsgUrl.parse, cut, empty] using whole
    · left
      simpa [adapterUrl, MsgUrl.parse, cut, empty] using whole.symm

/-- What stands in front of every question mark stands in front of the first. -/
theorem behind_question {front rest path query : Str} (absent : '?' ∉ front)
    (same : front ++ rest = path ++ '?' :: query) :
    ∃ middle, path = front ++ middle ∧ rest = middle ++ '?' :: query := by
  rcases List.append_eq_append_iff.mp same with ⟨middle, isPath, tail⟩ | ⟨middle, isFront, tail⟩
  · exact ⟨middle, isPath, tail⟩
  · cases middle with
    | nil => exact ⟨[], by simpa using isFront.symm, by simpa using tail.symm⟩
    | cons c middle =>
      have marked : c = '?' := by simpa using (congrArg List.head? tail).symm
      exact absurd (by rw [isFront, marked]; simp) absent

theorem urlHost_of_scheme {start : Str} (scheme : start = "http://" ∨ start = "https://")
    (rest : Str) :
    urlHost (start ++ rest) =
      let authority := rest.takeWhile fun c => !WebUrl.isDelimiter c
      let host := (authority.rtakeWhile (· ≠ '@')).takeWhile (· ≠ ':')
      if host = [] then none else some (toAsciiLowercase host) := by
  have split : ∃ name, splitOnce "://" (start ++ rest) = some (name, rest) := by
    rcases scheme with rfl | rfl
    · exact ⟨"http", by simp [splitOnce]⟩
    · exact ⟨"https", by simp [splitOnce]⟩
  obtain ⟨name, split⟩ := split
  rw [urlHost, split]
  rfl

/-- The host that is checked is the host part of the URL's text. -/
theorem urlHost_text (parts : WebUrl.Parts) :
    urlHost parts.text = some (toAsciiLowercase parts.host) := by
  rw [WebUrl.Parts.text, urlHost_of_scheme parts.isScheme]
  rw [parts.takeWhile_text parts.undelimited parts.rest parts.delimited]
  dsimp only
  rw [parts.rtakeWhile_authority, parts.takeWhile_host, if_neg parts.named]

variable {parseHost : Str → Option Str} {url host : Str}

/-- A URL that the adapter sends has one of its schemes. -/
theorem scheme_of_contacted (contacted : contactedHost parseHost url = some host) :
    ∃ start behind, (start = ("http://" : Str) ∨ start = ("https://" : Str)) ∧
      url = start ++ behind := by
  have sent : adapterUrl (MsgUrl.parse url) <+: url := by
    rcases adapterUrl_cases url with same | cut
    · rw [same]
    · exact ⟨['?'], cut.symm⟩
  unfold contactedHost at contacted
  simp only at contacted
  split at contacted
  next accepted =>
    rcases accepted with plain | secure
    · obtain ⟨behind, isUrl⟩ := plain.trans sent
      exact ⟨_, behind, .inl rfl, isUrl.symm⟩
    · obtain ⟨behind, isUrl⟩ := secure.trans sent
      exact ⟨_, behind, .inr rfl, isUrl.symm⟩
  next => cases contacted

/-- A URL that the adapter sends is read alike by the pipeline's and the guest's check. -/
theorem urlHost_path_of_contacted (contacted : contactedHost parseHost url = some host) :
    urlHost (MsgUrl.parse url).path = urlHost url := by
  obtain ⟨start, behind, scheme, isUrl⟩ := scheme_of_contacted contacted
  cases cut : splitOnce ['?'] url with
  | none => simp [MsgUrl.parse, cut]
  | some parts =>
    obtain ⟨path, query⟩ := parts
    have isPath : (MsgUrl.parse url).path = path := by simp [MsgUrl.parse, cut]
    have whole : start ++ behind = path ++ '?' :: query := by
      rw [← isUrl, splitOnce_append cut, List.append_assoc]
      rfl
    have absent : '?' ∉ start := by
      rcases scheme with rfl | rfl <;> decide
    obtain ⟨middle, rfl, isBehind⟩ := behind_question absent whole
    rw [isPath, isUrl, isBehind, urlHost_of_scheme scheme, urlHost_of_scheme scheme,
      takeWhile_append_cons (by decide)]

/-- A URL that is checked and sent is divided into its parts. -/
theorem exists_parts {checked : Str} (read : urlHost url = some checked)
    (contacted : contactedHost parseHost url = some host) :
    ∃ parts : WebUrl.Parts, parts.text = url ∧ checked = toAsciiLowercase parts.host := by
  obtain ⟨start, behind, scheme, rfl⟩ := scheme_of_contacted contacted
  have named := read
  rw [urlHost_of_scheme scheme] at named
  dsimp only at named
  split at named
  · cases named
  · rename_i some_
    obtain ⟨parts, isText⟩ := WebUrl.Parts.exists_text scheme behind some_
    rw [← isText, urlHost_text] at read
    cases read
    exact ⟨parts, isText, rfl⟩

/-- What the adapter sends differs from the URL in its rest at most. -/
theorem adapterUrl_text (parts : WebUrl.Parts) :
    ∃ rest delimited,
      adapterUrl (MsgUrl.parse parts.text) =
        WebUrl.Parts.text { parts with rest := rest, delimited := delimited } := by
  rcases adapterUrl_cases parts.text with same | cut
  · exact ⟨parts.rest, parts.delimited, same⟩
  · have absent : '?' ∉ parts.scheme ++ parts.authority := by
      intro inside
      rcases List.mem_append.mp inside with inScheme | inAuthority
      · rcases parts.isScheme with isScheme | isScheme <;> simp [isScheme] at inScheme
      · exact absurd (parts.undelimited '?' inAuthority) (by decide)
    obtain ⟨rest, sent, tail⟩ :=
      behind_question absent ((List.append_assoc _ _ _).trans cut)
    refine ⟨rest, fun c isHead => parts.delimited c ?_, sent.trans (List.append_assoc _ _ _)⟩
    obtain ⟨later, rfl⟩ := List.head?_eq_some_iff.mp isHead
    rw [tail]
    rfl

/-- The first host that is connected to for a URL with a quiet authority. -/
theorem contactedHost_of_quiet (parseHost : Str → Option Str) {parts : WebUrl.Parts}
    (quiet : parts.Quiet) :
    contactedHost parseHost parts.text =
      if WebUrl.isPort (some parts.port.tail) then parseHost parts.host else none := by
  obtain ⟨rest, delimited, sent⟩ := adapterUrl_text parts
  have accepted : ("http://" : Str) <+: adapterUrl (MsgUrl.parse parts.text) ∨
      ("https://" : Str) <+: adapterUrl (MsgUrl.parse parts.text) := by
    rw [sent]
    exact parts.isScheme.imp (fun isScheme => ⟨_, congrArg (· ++ _) isScheme.symm⟩)
      fun isScheme => ⟨_, congrArg (· ++ _) isScheme.symm⟩
  unfold contactedHost
  dsimp only
  rw [if_pos accepted, sent]
  exact WebUrl.Parts.host_of_quiet { parts with rest := rest, delimited := delimited } parseHost quiet

/-! ## The binding -/

/-- No slice of the classification falls inside a character. -/
def BoundarySafe (url : Str) : Prop :=
  (utf8Len url < 7 ∨ ∃ slice, slice <+: url ∧ utf8Len slice = 7) ∧
    ((∃ slice, slice <+: url ∧ utf8Len slice = 7 ∧ toAsciiLowercase slice = "http://") ∨
      utf8Len url < 8 ∨ ∃ slice, slice <+: url ∧ utf8Len slice = 8)

theorem lowerStarts_eq_none {start : Str} :
    lowerStarts url start = none ↔
      utf8Len start ≤ utf8Len url ∧
        ¬ ∃ slice, slice <+: url ∧ utf8Len slice = utf8Len start := by
  unfold lowerStarts
  split
  next long =>
    rw [Option.map_eq_none_iff, Option.eq_none_iff_forall_not_mem]
    simp only [Option.mem_def, sliceTo_eq_some, long, true_and, not_exists]
  next short => simp [short]

theorem isExternalUrl_ne_none (url : Str) :
    isExternalUrl url ≠ none ↔ BoundarySafe url := by
  have plainLength : utf8Len ("http://" : Str) = 7 := by decide
  have secureLength : utf8Len ("https://" : Str) = 8 := by decide
  unfold isExternalUrl BoundarySafe
  cases plain : lowerStarts url "http://" with
  | none =>
    have inside := lowerStarts_eq_none.mp plain
    rw [plainLength] at inside
    simp only [Option.bind_none, ne_eq, not_true_eq_false, false_iff, not_and]
    intro safe
    rcases safe with short | aligned
    · omega
    · exact absurd aligned inside.2
  | some starts =>
    have aligned : utf8Len url < 7 ∨ ∃ slice, slice <+: url ∧ utf8Len slice = 7 := by
      by_contra misaligned
      rw [not_or, not_lt] at misaligned
      have failed : lowerStarts url "http://" = none := by
        rw [lowerStarts_eq_none, plainLength]
        exact misaligned
      rw [plain] at failed
      cases failed
    have start_iff :
        starts = true ↔
          ∃ slice, slice <+: url ∧ utf8Len slice = 7 ∧ toAsciiLowercase slice = "http://" := by
      unfold lowerStarts at plain
      rw [plainLength] at plain
      split at plain
      next long =>
        obtain ⟨slice, cut, decided⟩ := Option.map_eq_some_iff.mp plain
        have sliced := sliceTo_eq_some.mp cut
        constructor
        · intro accepted
          rw [accepted, decide_eq_true_eq] at decided
          exact ⟨slice, sliced.1, sliced.2, decided⟩
        · rintro ⟨other, prefixed, measured, lowered⟩
          have same := sliceTo_eq_some.mpr ⟨prefixed, measured⟩
          rw [cut] at same
          cases same
          rw [← decided, decide_eq_true_eq]
          exact lowered
      next short =>
        cases plain
        simp only [Bool.false_eq_true, false_iff, not_exists, not_and]
        rintro slice ⟨rest, rfl⟩ measured
        simp [utf8Len] at short measured
        omega
    simp only [Option.bind_some, aligned, true_and]
    rw [← start_iff]
    cases starts with
    | true => simp
    | false =>
      simp only [Bool.false_eq_true, if_false, false_or]
      rw [not_iff_comm, not_or, lowerStarts_eq_none, secureLength, not_lt]

/-- A list of patterns allows a host. -/
def Allows (hosts : List Str) (host : Str) : Prop :=
  ∃ pattern ∈ hosts, hostMatches pattern host

/-- Where a grant with these patterns lets a URL through, it allows every host that is
connected to: as a grant of a pipeline mount, and as one of a guest. -/
structure HostBound (transport : Transport) (hosts : List Str) (url : Str) : Prop where
  pipeline : ∀ (dispatch : ExternalDispatch) (grant : HostGrant) (index : Nat),
    dispatch.grants[index]? = some grant → grant.hosts = hosts →
    isExternalUrl url = some true → dispatch.authorize url = .ok index →
    ∀ host ∈ contactedHosts transport url, Allows hosts host
  guest : guestAuthorize hosts (MsgUrl.parse url) = .ok () →
    ∀ host ∈ contactedHosts transport url, Allows hosts host

/-- The transport reads the host that is checked, wherever it reads one at all. -/
def ReadsSameHost (parseHost : Str → Option Str) (url : Str) : Prop :=
  ∀ checked contacted,
    urlHost url = some checked →
    contactedHost parseHost url = some contacted →
    contacted = checked

/-- Patterns that allow the host part of a URL's text go on to allow what becomes of it: what the
host parser makes of that part, if the authority is quiet, what the transport reads otherwise, and
the hosts of the redirects. -/
structure StaysAllowed (transport : Transport) (hosts : List Str) (parts : WebUrl.Parts) :
    Prop where
  parsed : parts.Quiet → WebUrl.isPort (some parts.port.tail) = true →
    ∀ host, transport.parseHost parts.host = some host → Allows hosts host
  hidden : ¬ parts.Quiet →
    ∀ host, contactedHost transport.parseHost parts.text = some host → Allows hosts host
  redirected : ∀ host ∈ (contactedHosts transport parts.text).tail, Allows hosts host

theorem authorize_eq_ok {dispatch : ExternalDispatch} {grant : Nat}
    (authorized : dispatch.authorize url = .ok grant) :
    ∃ checked hostGrant, urlHost url = some checked ∧
      dispatch.grants[grant]? = some hostGrant ∧ Allows hostGrant.hosts checked := by
  unfold ExternalDispatch.authorize at authorized
  split at authorized
  next => cases authorized
  next checked read =>
    split at authorized
    next => cases authorized
    next found =>
      split at authorized
      next =>
        cases authorized
        obtain ⟨inRange, allowed, -⟩ := List.findIdx?_eq_some_iff_getElem.mp found
        refine ⟨checked, dispatch.grants[grant], read, by simp, ?_⟩
        simpa [HostGrant.allows, Allows] using allowed
      next => cases authorized

theorem guestAuthorize_eq_ok {hosts : List Str} {url : MsgUrl} :
    guestAuthorize hosts url = .ok () ↔
      ∃ checked, urlHost url.path = some checked ∧ Allows hosts checked := by
  unfold guestAuthorize Allows
  cases urlHost url.path with
  | none => simp
  | some checked =>
    simp only [Option.some.injEq, exists_eq_left', ← List.any_eq_true]
    split
    next allowed => simp [allowed]
    next denied => simp [denied]

theorem exists_contactedHost {transport : Transport}
    (contacted : host ∈ contactedHosts transport url) :
    ∃ first, contactedHost transport.parseHost url = some first := by
  unfold contactedHosts at contacted
  split at contacted
  · cases contacted
  · rename_i first isFirst
    exact ⟨first, isFirst⟩

/-- The host part of the URL's text decides whether a grant lets the URL through. -/
theorem hostBound_iff (transport : Transport) (hosts : List Str) (url : Str) :
    HostBound transport hosts url ↔
      ∀ parts : WebUrl.Parts, parts.text = url → Allows hosts (toAsciiLowercase parts.host) →
        ∀ host ∈ contactedHosts transport url, Allows hosts host := by
  constructor
  · rintro bound parts rfl allowed host contacted
    obtain ⟨first, isFirst⟩ := exists_contactedHost contacted
    have read := (urlHost_path_of_contacted isFirst).trans (urlHost_text parts)
    exact bound.guest (guestAuthorize_eq_ok.mpr ⟨_, read, allowed⟩) host contacted
  · intro bound
    have transfer : ∀ checked, urlHost url = some checked → Allows hosts checked →
        ∀ host ∈ contactedHosts transport url, Allows hosts host := by
      intro checked read allowed host contacted
      obtain ⟨first, isFirst⟩ := exists_contactedHost contacted
      obtain ⟨parts, isText, rfl⟩ := exists_parts read isFirst
      exact bound parts isText allowed host contacted
    constructor
    · intro dispatch grant index isGrant isHosts _ authorized
      obtain ⟨checked, found, read, isFound, allowed⟩ := authorize_eq_ok authorized
      rw [isGrant] at isFound
      cases isFound
      exact transfer checked read (isHosts ▸ allowed)
    · intro authorized host contacted
      obtain ⟨checked, read, allowed⟩ := guestAuthorize_eq_ok.mp authorized
      obtain ⟨first, isFirst⟩ := exists_contactedHost contacted
      rw [urlHost_path_of_contacted isFirst] at read
      exact transfer checked read allowed host contacted

theorem staysAllowed_iff (transport : Transport) (hosts : List Str) (parts : WebUrl.Parts) :
    StaysAllowed transport hosts parts ↔
      ∀ host ∈ contactedHosts transport parts.text, Allows hosts host := by
  have first : (∀ host, contactedHost transport.parseHost parts.text = some host →
      Allows hosts host) ↔
      (parts.Quiet → WebUrl.isPort (some parts.port.tail) = true →
        ∀ host, transport.parseHost parts.host = some host → Allows hosts host) ∧
      (¬ parts.Quiet →
        ∀ host, contactedHost transport.parseHost parts.text = some host → Allows hosts host) := by
    by_cases quiet : parts.Quiet
    · rw [contactedHost_of_quiet _ quiet]
      by_cases valid : WebUrl.isPort (some parts.port.tail) = true
      · simp [quiet, valid]
      · simp [quiet, valid]
    · simp [quiet]
  have all : (∀ host ∈ contactedHosts transport parts.text, Allows hosts host) ↔
      (∀ host, contactedHost transport.parseHost parts.text = some host → Allows hosts host) ∧
        ∀ host ∈ (contactedHosts transport parts.text).tail, Allows hosts host := by
    unfold contactedHosts
    split
    · rename_i refused
      simp [refused]
    · rename_i host isHost
      simp [isHost]
  rw [all, first]
  exact ⟨fun stays => ⟨⟨stays.parsed, stays.hidden⟩, stays.redirected⟩,
    fun both => ⟨both.1.1, both.1.2, both.2⟩⟩

/-- A client that takes host texts as they are and is sent on from one URL to another. -/
def sentOn : Transport where
  parseHost := some
  redirect := fun url => if url = "http://allowed.com/" then some "http://evil.com/" else none
  redirects := 4

/-- An ordinary URL, with a plain host text that the transport only lowers, is read alike by
the check and the transport. -/
theorem readsSameHost_of_plain (parseHost : Str → Option Str) {start text rest : Str}
    (scheme : start = "http://" ∨ start = "https://") (nonempty : text ≠ [])
    (plain : ∀ c ∈ text, WebUrl.isPlain c)
    (lowers : ∀ host, parseHost text = some host → host = toAsciiLowercase text)
    (ends : ∀ c, rest.head? = some c → c = '/' ∨ c = '?' ∨ c = '#') :
    ReadsSameHost parseHost (start ++ text ++ rest) := by
  have free : ∀ c ∈ text, WebUrl.isTrimmed c = false ∧ WebUrl.isDelimiter c = false ∧
      c ≠ '\\' ∧ c ≠ '@' ∧ c ≠ ':' ∧ c ≠ '[' ∧ c ≠ ']' := by
    intro c member
    have parts := plain c member
    simp only [WebUrl.isPlain, WebUrl.endsAuthority, WebUrl.isSlash, Bool.and_eq_true,
      Bool.not_eq_true', Bool.or_eq_false_iff, bne_iff_ne, ne_eq, beq_eq_false_iff_ne] at parts
    simp [WebUrl.isDelimiter, parts]
  have absent : ∀ c, (∀ d ∈ text, d ≠ c) → c ∉ text := fun c none_ member => none_ c member rfl
  let parts : WebUrl.Parts :=
    { scheme := start, credentials := [], host := text, port := [], rest := rest
      isScheme := scheme
      closed := .inl rfl
      undelimited := by simpa using fun c member => (free c member).2.1
      named := nonempty
      unmarked := by simpa using absent '@' fun c member => (free c member).2.2.2.1
      colonless := absent ':' fun c member => (free c member).2.2.2.2.1
      ported := .inl rfl
      delimited := by
        intro c headed
        rcases ends c headed with rfl | rfl | rfl <;> decide }
  have quiet : parts.Quiet := by
    refine ⟨fun c member => ?_, absent '[' fun c member => (free c member).2.2.2.2.2.1,
      absent ']' fun c member => (free c member).2.2.2.2.2.2⟩
    have inText : c ∈ text := by simpa [WebUrl.Parts.authority, parts] using member
    exact ⟨(free c inText).1, (free c inText).2.2.1⟩
  have isText : start ++ text ++ rest = parts.text := by
    simp [parts, WebUrl.Parts.text, WebUrl.Parts.authority]
  intro checked contacted read reached
  rw [isText, urlHost_text] at read
  rw [isText, contactedHost_of_quiet parseHost quiet] at reached
  cases read
  exact lowers contacted reached

theorem api_url_is_read_alike :
    ReadsSameHost (fun text => some (toAsciiLowercase text))
      ("https://" ++ "api.example.com" ++ "/v1" : Str) := by
  apply readsSameHost_of_plain
  · exact .inr rfl
  · decide
  · exact List.all_eq_true.mp (by decide)
  · intro host read
    exact (Option.some.inj read).symm
  · intro c first
    exact .inl (Option.some.inj first).symm

end Rs2Runtime.Outbound
