import Rs2Runtime.Data.Machine
import Rs2Runtime.Guest.ImageService

/-!
Contract: the cache of derived images, under every interleaving of requests and writes.

Owns:
- the host's side of a call, with the delivery of referenced bodies;
- that derivatives are made from the version they are named by, and that equal tags come with
  equal bytes, where a request reads the version that it looked at.

Does not own: what is done with the bytes, or how the source comes by its tags.

## Why the second read matters

The name of a derivative has the tag of a first call and its pixels are those of a later one.  A
write in between gives the pixels of one version the name of the other.
-/

namespace Rs2Runtime.Guest.Image

open Text Data Json Data.Machine

/-! ## The host -/

/-- A version of a source, by its tag; an empty one stands for none. -/
structure Version where
  etag : Str
  mediaType : Str
  oneLine : '\n' ∉ etag

def Version.headers (version : Version) : List (Str × Str) :=
  if version.etag = [] then [("content-type", version.mediaType)]
  else [("etag", version.etag), ("content-type", version.mediaType)]

structure World where
  source : Str → Option Version
  cache : Str → Option Body

/-- A call that fails, before or after it is carried out. -/
structure Fault where
  answer : Answer
  carriedOut : Bool
  failed : answer.succeeded = false

structure Thread where
  program : Handling
  /-- The tag that the request found at its source. -/
  seen : Option Str

structure State extends World where
  threads : Nat → Option Thread
  /-- The tags and bytes of derivatives that were answered with. -/
  delivered : List (Str × Octets)

inductive Action where
  | change (path : Str) (version : Option Version)
  | start (id : Nat) (request : Message) (config : Value)
  | call (id : Nat) (fault : Option Fault)
  | deliver (id : Nat)

def noted (seen : Option Str) (request : HostCall) : Answer → Option Str
  | .error _ => seen
  | .ok message =>
    if request.capability = .source ∧ request.message.method = "HEAD" ∧ message.is2xx then
      some ((header message.headers "etag").getD [])
    else seen

/-- The tag of a successful response with a derivative. -/
def Message.tag (response : Message) : Option Str :=
  if response.status = 200 ∧ (header response.headers "x-img-cache").isSome then
    header response.headers "etag"
  else none

section Host

variable (content : Str → Str → Octets)

/-- What a call gives and does. -/
def World.answer (world : World) (request : HostCall) : Message × World :=
  let url := request.message.url
  match request.capability with
  | .source =>
    match world.source url with
    | none => (resp 404 [] none, world)
    | some version =>
      (resp 200 version.headers (if request.message.method = "GET" then
        some ⟨version.mediaType, content url version.etag⟩ else none), world)
  | .cache =>
    if request.message.method = "PUT" then
      (resp 201 [] none,
        { world with cache := Function.update world.cache url request.message.body })
    else if request.message.method = "DELETE" then
      (resp 204 [] none,
        { world with cache := fun rel => if ("/d/" : Str) <+: rel then none else world.cache rel })
    else
      match world.cache url with
      | none => (resp 404 [] none, world)
      | some body =>
        (resp 200 [] (if request.message.method = "GET" then some body else none), world)

def World.perform (world : World) (request : HostCall) : Option Fault → Answer × World
  | none => (.ok (world.answer content request).1, (world.answer content request).2)
  | some fault =>
    (fault.answer, if fault.carriedOut then (world.answer content request).2 else world)

/-- The bytes of a response, read by its reference where it has one. -/
def World.bytesOf (world : World) (response : Message) : Option Octets :=
  match header response.headers "x-rs2-body-ref" with
  | none => response.body.map Body.bytes
  | some reference =>
    match splitOnce [':'] reference with
    | none => none
    | some (capability, path) =>
      if response.body.isSome then none
      else if capability = "cache" then (world.cache path).map Body.bytes
      else if capability = "source" then
        (world.source path).map fun version => content path version.etag
      else none

variable {floats : Floats} (library : Library floats)

def step (state : State) : Action → Option State
  | .change path version => some { state with source := Function.update state.source path version }
  | .start id request config =>
    if state.threads id = none ∧ '\n' ∉ request.url then
      some { state with
        threads := Function.update state.threads id (some ⟨handle library request config, none⟩) }
    else none
  | .call id fault =>
    match state.threads id with
    | some ⟨.call request next, seen⟩ =>
      let (answer, world) := state.toWorld.perform content request fault
      some { state with
        toWorld := world
        threads := Function.update state.threads id
          (some ⟨next answer, noted seen request answer⟩) }
    | _ => none
  | .deliver id =>
    match state.threads id with
    | some ⟨.done response, _⟩ =>
      some { state with
        threads := Function.update state.threads id none
        delivered := (Option.map₂ Prod.mk response.tag
          (state.toWorld.bytesOf content response)).toList ++ state.delivered }
    | _ => none

end Host

/-- Nothing is cached, and no request has come. -/
def State.initial (source : Str → Option Version) : State :=
  ⟨⟨source, fun _ => none⟩, fun _ => none, []⟩

/-- The read of a source finds the tag that the request found before. -/
def readsWhatItSaw (state : State) : Action → Bool
  | .call id _ =>
    match state.threads id with
    | some ⟨.call request _, some etag⟩ =>
      !(request.capability = .source && request.message.method = "GET") ||
        (state.source request.message.url).all fun version => version.etag = etag
    | _ => true
  | _ => true

/-! ## Derivatives -/

section Derivatives

variable {floats : Floats} (library : Library floats) (content : Str → Str → Octets)

/-- What a derivative is named by. -/
structure Derivative (floats : Floats) where
  sub : Str
  etag : Str
  shape : Shape floats
  resolved : Format
  subLine : '\n' ∉ sub
  etagLine : '\n' ∉ etag

def Derivative.text (derivative : Derivative floats) : Str :=
  identity derivative.sub derivative.etag derivative.shape derivative.resolved

def Derivative.rel (derivative : Derivative floats) : Str :=
  cacheRel library derivative.text derivative.resolved.extension

/-- The bytes are those of the version and the parameters that the derivative is named by. -/
def Derivative.Renders (derivative : Derivative floats) (bytes : Octets) : Prop :=
  library.render (content derivative.sub derivative.etag) derivative.shape derivative.resolved =
    .ok bytes

/-- Cached derivatives are what their names say, and equal tags come with equal bytes. -/
structure Faithful (state : State) : Prop where
  named : ∀ rel body, state.cache rel = some body →
    ∃ derivative : Derivative floats, derivative.rel library = rel
  rendered : ∀ (derivative : Derivative floats) body,
    state.cache (derivative.rel library) = some body →
      derivative.Renders library content body.bytes
  agree : ∀ tag bytes bytes', (tag, bytes) ∈ state.delivered → (tag, bytes') ∈ state.delivered →
    bytes = bytes'

variable {left right : Derivative floats}

theorem eq_of_text (same : left.text = right.text) : left = right := by
  obtain ⟨sub, etag, shape, resolved, subLine, etagLine⟩ := left
  obtain ⟨sub', etag', shape', resolved', subLine', etagLine'⟩ := right
  obtain ⟨subs, rest⟩ := cut_unique subLine subLine' same
  obtain ⟨etags, canonicals⟩ := cut_unique etagLine etagLine' rest
  obtain ⟨shapes, formats⟩ := eq_of_canonical canonicals
  subst subs etags shapes formats
  rfl

theorem hexDigit_plain (digit : Fin 16) : hexDigit digit ≠ '/' ∧ hexDigit digit ≠ '.' := by
  revert digit
  decide

theorem toHex_plain (octets : Octets) : '/' ∉ toHex octets ∧ '.' ∉ toHex octets := by
  have digits : ∀ c ∈ toHex octets, ∃ digit : Fin 16, c = hexDigit digit := by
    intro c member
    obtain ⟨octet, -, member⟩ := List.mem_flatMap.mp member
    have bound := octet.toNat_lt
    rcases List.mem_cons.mp member with rfl | member
    · exact ⟨⟨octet.toNat / 16, by omega⟩, rfl⟩
    · rw [List.mem_singleton.mp member]
      exact ⟨⟨octet.toNat % 16, by omega⟩, rfl⟩
  constructor
  · intro member
    obtain ⟨digit, same⟩ := digits _ member
    exact (hexDigit_plain digit).1 same.symm
  · intro member
    obtain ⟨digit, same⟩ := digits _ member
    exact (hexDigit_plain digit).2 same.symm

/-- A place in the cache is the place of one derivative. -/
theorem eq_of_rel (same : left.rel library = right.rel library) : left = right := by
  have plain := fun derivative : Derivative floats => toHex_plain (library.digest derivative.text)
  have short : ∀ derivative : Derivative floats,
      '/' ∉ (toHex (library.digest derivative.text)).take 2 := by
    intro derivative member
    exact (plain derivative).1 (List.mem_of_mem_take member)
  have tails := (cut_unique (short left) (short right) (List.append_cancel_left same)).2
  have keys := (cut_unique (plain left).2 (plain right).2 tails).1
  exact eq_of_text (library.digest_injective (toHex_injective keys))

theorem eq_of_derivedEtag (same : derivedEtag library left.text = derivedEtag library right.text) :
    left = right := by
  have digits := List.append_cancel_right (List.cons.inj same).2
  exact eq_of_text (library.short_injective digits)

/-! ## What a request keeps to -/

/-- What answers are assumed to be: the bytes of the tag that was seen, and tags of one line. -/
structure Fits (seen : Option Str) (request : HostCall) (answer : Answer) : Prop where
  get : ∀ etag message body, request.capability = .source → request.message.method = "GET" →
    seen = some etag → answer = .ok message → message.is2xx = true → message.body = some body →
      body.bytes = content request.message.url etag
  head : ∀ message, request.capability = .source → request.message.method = "HEAD" →
    answer = .ok message → message.is2xx = true → '\n' ∉ (header message.headers "etag").getD []

/-- A response with a derivative has its tag, and its bytes or a reference to them. -/
def Honest (response : Message) : Prop :=
  response.tag = none ∨ ∃ derivative : Derivative floats,
    response.tag = some (derivedEtag library derivative.text) ∧
      (header response.headers "x-rs2-body-ref" = none ∧
          (∀ body, response.body = some body → derivative.Renders library content body.bytes) ∨
        header response.headers "x-rs2-body-ref" =
          some (("cache:" : Str) ++ derivative.rel library))

def terms : Calls.Terms HostCall Answer Message (Option Str) where
  Result := Honest library content
  Request request := request.capability = .cache → request.message.method = "PUT" →
    ∀ body, request.message.body = some body → ∃ derivative : Derivative floats,
      request.message.url = derivative.rel library ∧
        derivative.Renders library content body.bytes
  Answer := Fits content
  note := noted

variable {library content}

theorem safe_call {seen : Option Str} {capability : Capability} {message : Message}
    {next : Message → Handling} (reads : message.method ≠ "PUT")
    (continues : ∀ answer, Fits content seen ⟨capability, message⟩ (.ok answer) →
      Calls.Safe (terms library content) (noted seen ⟨capability, message⟩ (.ok answer))
        (next answer)) :
    Calls.Safe (terms library content) seen (call capability message next) := by
  constructor
  · intro _ puts
    exact absurd puts reads
  · intro answer fits
    cases answer with
    | error problem =>
      apply Or.inl
      cases problem <;> rfl
    | ok answer => exact continues answer fits

theorem honest_fromCache (request : Message) (derivative : Derivative floats)
    (state mediaType : Str) :
    Honest library content (fromCache request (derivedEtag library derivative.text)
      (derivative.rel library) state mediaType) := by
  refine .inr ⟨derivative, ?_⟩
  unfold fromCache
  split
  · refine ⟨rfl, .inl ⟨rfl, ?_⟩⟩
    intro body none_
    cases none_
  · exact ⟨rfl, .inr rfl⟩

theorem honest_fromMade (request : Message) {derivative : Derivative floats} {made : Body}
    (renders : derivative.Renders library content made.bytes) (stored : Bool) :
    Honest library content (fromMade request (derivedEtag library derivative.text)
      (derivative.rel library) made stored) := by
  unfold fromMade
  split
  · exact honest_fromCache request derivative _ _
  · split
    · exact honest_fromCache request derivative _ _
    · refine .inr ⟨derivative, rfl, .inl ⟨rfl, ?_⟩⟩
      intro body isBody
      cases isBody
      exact renders

theorem render_of_transform {source : Octets} {shape : Shape floats} {resolved : Format}
    {cap : Nat} {bytes : Octets} (made : transform library source shape resolved cap = .ok bytes) :
    library.render source shape resolved = .ok bytes := by
  unfold transform at made
  cases probed : library.probe source with
  | error detail =>
    rw [probed] at made
    cases made
  | ok size =>
    rw [probed] at made
    dsimp only at made
    split at made
    · cases made
    · exact made

/-- Making a derivative of the version that was seen. -/
theorem safe_miss (request : Message) (cap : Nat) (derivative : Derivative floats) :
    Calls.Safe (terms library content) (some derivative.etag)
      (miss library request cap derivative.sub derivative.shape derivative.resolved
        derivative.text) := by
  apply safe_call (by simp [req])
  · intro got fits
    dsimp only
    split
    next body ok some_ =>
      have bytes := fits.get _ _ body rfl rfl rfl rfl ok some_
      cases made : transform library body.bytes derivative.shape derivative.resolved cap with
      | error problem =>
        apply Or.inl
        cases problem <;> rfl
      | ok octets =>
        have renders : derivative.Renders library content octets := by
          have rendered := render_of_transform made
          rw [bytes] at rendered
          exact rendered
        constructor
        · intro _ _ body isBody
          cases isBody
          exact ⟨derivative, rfl, renders⟩
        · intro stored _
          exact honest_fromMade request renders stored.succeeded
    next => exact .inl rfl

theorem noted_cache (seen : Option Str) (message : Message) (answer : Answer) :
    noted seen ⟨.cache, message⟩ answer = seen := by
  cases answer with
  | error problem => rfl
  | ok answer =>
    unfold noted
    apply if_neg
    rintro ⟨impossible, -⟩
    cases impossible

theorem safe_derive (request : Message) (cap : Nat) (derivative : Derivative floats) :
    Calls.Safe (terms library content) (some derivative.etag)
      (derive library request cap derivative.sub derivative.etag derivative.shape
        derivative.resolved) := by
  unfold derive
  dsimp only
  split
  · exact .inl rfl
  · constructor
    · intro _ puts
      cases puts
    · intro hit _
      change Calls.Safe (terms library content) (noted (some derivative.etag) _ hit)
        (if hit.succeeded then _ else _)
      rw [noted_cache]
      split
      · exact honest_fromCache request derivative _ _
      · exact safe_miss request cap derivative

theorem newline_not_mem_subPath {request : Message} {path : Str} (plain : '\n' ∉ path) :
    '\n' ∉ subPath request path := by
  have stripped : '\n' ∉ (stripStart ((header request.headers "x-rs2-base-path").getD "/")
      path).getD path := by
    unfold stripStart
    split
    · intro member
      exact plain (List.mem_of_mem_drop member)
    · exact plain
  unfold subPath
  dsimp only
  by_cases root : (header request.headers "x-rs2-base-path").getD "/" = "/"
  · rw [if_pos root]
    split
    · decide
    · exact plain
  · rw [if_neg root]
    split
    · decide
    · exact stripped

theorem tag_of_not_is2xx {response : Message} (failed : ¬ response.is2xx = true) :
    response.tag = none := by
  apply if_neg
  rintro ⟨ok, -⟩
  apply failed
  rw [Message.is2xx, ok]
  rfl

theorem safe_purge (seen : Option Str) (sub query : Str) :
    Calls.Safe (terms library content) seen (purge sub query) := by
  unfold purge
  split
  · exact .inl rfl
  · split
    · exact .inl rfl
    · apply safe_call (by simp [req])
      intro deleted _
      apply Or.inl
      split
      · rfl
      next refused =>
        rw [Bool.or_eq_true, not_or] at refused
        exact tag_of_not_is2xx refused.1

theorem safe_info (seen : Option Str) (sub : Str) :
    Calls.Safe (terms library content) seen (info library sub) := by
  apply safe_call (by simp [req])
  intro got _
  split
  next body _ _ =>
    cases library.probe body.bytes with
    | error detail => exact .inl rfl
    | ok size => exact .inl rfl
  next => exact .inl rfl

theorem tag_passthrough (request : Message) (sub etag sourceType : Str) :
    (passthrough request sub etag sourceType).tag = none := by
  unfold passthrough
  split
  · rfl
  · dsimp only
    split
    · split
      · rfl
      · rfl
    · split
      · rfl
      · rfl

theorem safe_handle {request : Message} (plain : '\n' ∉ request.url) (config : Value) :
    Calls.Safe (terms library content) none (handle library request config) := by
  have path : '\n' ∉ ((splitOnce ['?'] request.url).getD (request.url, [])).1 := by
    cases cut : splitOnce ['?'] request.url with
    | none => exact plain
    | some parts =>
      intro member
      rw [splitOnce_append cut] at plain
      exact plain (List.mem_append_left _ (List.mem_append_left _ member))
  have sub : '\n' ∉ subPath request _ := newline_not_mem_subPath path
  unfold handle
  cases Config.fromJson config with
  | error problem => exact .inl rfl
  | ok limits =>
    dsimp only
    split
    · exact safe_purge none _ _
    · split
      · exact .inl rfl
      · split
        · exact safe_info none _
        · cases parse floats limits ((splitOnce ['?'] request.url).getD (request.url, [])).2 with
          | error problem => exact .inl rfl
          | ok params =>
            apply safe_call (by simp [req])
            intro head fits
            split
            · exact .inl rfl
            next found =>
              have ok : head.is2xx = true := by simpa using found
              cases params with
              | none => exact .inl (tag_passthrough _ _ _ _)
              | some params =>
                have line := fits.head head rfl rfl rfl ok
                have saw : ∀ sub, noted none ⟨.source, req "HEAD" sub⟩ (.ok head) =
                    some ((header head.headers "etag").getD []) :=
                  fun sub => if_pos ⟨rfl, rfl, ok⟩
                rw [saw]
                exact safe_derive request limits.maxSourcePixels
                  ⟨_, _, params.toShape, resolveFormat params.format (sourceType head), sub, line⟩

/-! ## What every step keeps -/

variable (library content)

/-- What is in the cache has the bytes that its name says. -/
def Cached (world : World) : Prop :=
  ∀ rel body, world.cache rel = some body → ∃ derivative : Derivative floats,
    rel = derivative.rel library ∧ derivative.Renders library content body.bytes

structure Sound (state : State) : Prop where
  cached : Cached library content state.toWorld
  threads : ∀ id thread, state.threads id = some thread →
    Calls.Safe (terms library content) thread.seen thread.program
  delivered : ∀ entry ∈ state.delivered, ∃ derivative : Derivative floats,
    entry.1 = derivedEtag library derivative.text ∧
      derivative.Renders library content entry.2

variable {library content} {world : World} {request : HostCall}

theorem Cached.answer (cached : Cached library content world)
    (kept : (terms library content).Request request) :
    Cached library content (world.answer content request).2 := by
  obtain ⟨capability, message⟩ := request
  cases capability with
  | source =>
    unfold World.answer
    dsimp only
    cases world.source message.url with
    | none => exact cached
    | some version => exact cached
  | cache =>
    unfold World.answer
    dsimp only
    split
    next puts =>
      intro rel body held
      dsimp only at held
      by_cases same : rel = message.url
      · rw [same, Function.update_self] at held
        rw [same]
        exact kept rfl puts body held
      · rw [Function.update_of_ne same] at held
        exact cached rel body held
    · split
      · intro rel body held
        dsimp only at held
        split at held
        · cases held
        · exact cached rel body held
      · cases world.cache message.url with
        | none => exact cached
        | some body => exact cached

theorem Cached.perform (cached : Cached library content world)
    (kept : (terms library content).Request request) (fault : Option Fault) :
    Cached library content (world.perform content request fault).2 := by
  cases fault with
  | none => exact cached.answer kept
  | some fault =>
    unfold World.perform
    dsimp only
    split
    · exact cached.answer kept
    · exact cached

theorem header_etag (version : Version) :
    (header version.headers "etag").getD [] = version.etag := by
  unfold Version.headers
  split
  next empty =>
    rw [empty]
    rfl
  next => rfl

theorem fits_perform {seen : Option Str} (fault : Option Fault)
    (same : ∀ etag, seen = some etag → request.capability = .source →
      request.message.method = "GET" → ∀ version, world.source request.message.url = some version →
        version.etag = etag) :
    Fits content seen request (world.perform content request fault).1 := by
  have failed : ∀ fault : Fault, ∀ message, fault.answer = .ok message →
      ¬ message.is2xx = true := by
    intro fault message is ok
    have refused := fault.failed
    rw [is] at refused
    exact absurd (ok.symm.trans refused) (by decide)
  obtain ⟨capability, message⟩ := request
  cases fault with
  | some fault =>
    constructor
    · intro etag answer body _ _ _ is ok
      exact absurd ok (failed fault answer is)
    · intro answer _ _ is ok
      exact absurd ok (failed fault answer is)
  | none =>
    constructor
    · rintro etag answer body rfl gets saw is - hasBody
      cases is
      unfold World.answer at hasBody
      dsimp only at gets hasBody
      cases known : world.source message.url with
      | none =>
        rw [known] at hasBody
        cases hasBody
      | some version =>
        rw [known] at hasBody
        dsimp only [resp] at hasBody
        rw [if_pos gets] at hasBody
        cases hasBody
        rw [same etag saw rfl gets version known]
    · rintro answer rfl - is -
      cases is
      unfold World.answer
      dsimp only
      cases world.source message.url with
      | none => exact List.not_mem_nil
      | some version =>
        dsimp only [resp]
        rw [header_etag]
        exact version.oneLine

/-- What is delivered is what its tag says. -/
theorem delivered_of_honest {response : Message} (cached : Cached library content world)
    (honest : Honest library content response) {tag : Str} {bytes : Octets}
    (tagged : response.tag = some tag) (read : world.bytesOf content response = some bytes) :
    ∃ derivative : Derivative floats, tag = derivedEtag library derivative.text ∧
      derivative.Renders library content bytes := by
  rcases honest with none_ | ⟨derivative, isTag, body⟩
  · rw [none_] at tagged
    cases tagged
  · rw [isTag] at tagged
    cases tagged
    refine ⟨derivative, rfl, ?_⟩
    unfold World.bytesOf at read
    rcases body with ⟨noReference, renders⟩ | reference
    · rw [noReference] at read
      obtain ⟨body, isBody, rfl⟩ := Option.map_eq_some_iff.mp read
      exact renders body isBody
    · have cut : splitOnce [':'] (("cache" : Str) ++ ':' :: derivative.rel library) = some (_, _) :=
        splitOnce_char_of_not_mem (by decide)
      have cut : splitOnce [':'] (("cache:" : Str) ++ derivative.rel library) =
        some (("cache" : Str), derivative.rel library) := cut
      rw [reference] at read
      dsimp only at read
      rw [cut] at read
      dsimp only at read
      split at read
      · cases read
      · rw [if_pos rfl] at read
        obtain ⟨body, held, rfl⟩ := Option.map_eq_some_iff.mp read
        obtain ⟨other, place, renders⟩ := cached _ body held
        rw [eq_of_rel library place]
        exact renders

theorem Sound.step {state next : State} {action : Action} (sound : Sound library content state)
    (condition : readsWhatItSaw state action = true)
    (taken : step content library state action = some next) : Sound library content next := by
  have replaced : ∀ id (thread : Thread),
      Calls.Safe (terms library content) thread.seen thread.program →
      ∀ other known, Function.update state.threads id (some thread) other = some known →
        Calls.Safe (terms library content) known.seen known.program := by
    intro id thread safe other known is
    by_cases same : other = id
    · rw [same, Function.update_self] at is
      cases is
      exact safe
    · rw [Function.update_of_ne same] at is
      exact sound.threads other known is
  cases action with
  | change path version =>
    cases taken
    exact ⟨sound.cached, sound.threads, sound.delivered⟩
  | start id request config =>
    unfold Image.step at taken
    dsimp only at taken
    split at taken
    next fresh =>
      cases taken
      exact ⟨sound.cached, replaced id _ (safe_handle fresh.2 config), sound.delivered⟩
    next => cases taken
  | call id fault =>
    unfold Image.step at taken
    dsimp only at taken
    split at taken
    next request program seen known =>
      cases taken
      obtain ⟨kept, continues⟩ := sound.threads id _ known
      refine ⟨sound.cached.perform kept fault, replaced id _ ?_, sound.delivered⟩
      apply continues
      apply fits_perform
      rintro etag rfl isSource gets version there
      unfold readsWhatItSaw at condition
      dsimp only at condition
      rw [known] at condition
      dsimp only at condition
      rw [isSource, gets, there] at condition
      simpa using condition
    next => cases taken
  | deliver id =>
    unfold Image.step at taken
    dsimp only at taken
    split at taken
    next response seen known =>
      cases taken
      refine ⟨sound.cached, ?_, ?_⟩
      · intro other thread is
        dsimp only at is
        by_cases same : other = id
        · rw [same, Function.update_self] at is
          cases is
        · rw [Function.update_of_ne same] at is
          exact sound.threads other thread is
      · intro entry member
        rcases List.mem_append.mp member with new | old
        · obtain ⟨tag, bytes, tagged, read, rfl⟩ :=
            Option.map₂_eq_some_iff.mp (Option.mem_toList.mp new)
          exact delivered_of_honest sound.cached (sound.threads id _ known) tagged read
        · exact sound.delivered entry old
    next => cases taken

theorem Sound.faithful {state : State} (sound : Sound library content state) :
    Faithful library content state where
  named := by
    intro rel body held
    obtain ⟨derivative, place, -⟩ := sound.cached rel body held
    exact ⟨derivative, place.symm⟩
  rendered := by
    intro derivative body held
    obtain ⟨other, place, renders⟩ := sound.cached _ body held
    rw [eq_of_rel library place]
    exact renders
  agree := by
    intro tag bytes bytes' first second
    obtain ⟨derivative, isTag, renders⟩ := sound.delivered _ first
    obtain ⟨other, isTag', renders'⟩ := sound.delivered _ second
    rw [eq_of_derivedEtag library (isTag.symm.trans isTag')] at renders
    exact Except.ok.inj (renders.symm.trans renders')

end Derivatives

/-- In every run in which requests read the version that they looked at, derivatives are what
their names say, and equal tags come with equal bytes. -/
theorem derivatives_are_faithful {floats : Floats} (library : Library floats)
    (content : Str → Str → Octets) (source : Str → Option Version) {actions : List Action}
    {state : State}
    (met : AllMeet (step content library) (fun state action => readsWhatItSaw state action = true)
      (State.initial source) actions)
    (executed : run (step content library) (State.initial source) actions = some state) :
    Faithful library content state := by
  apply Sound.faithful
  have initially : Sound library content (State.initial source) := by
    constructor
    · intro rel body held
      cases held
    · intro id thread known
      cases known
    · intro entry member
      cases member
  exact run_invariant (fun state action next sound condition taken => sound.step condition taken)
    initially met executed

/-! ## A write between the two reads -/

/-- Pictures that are left as they are, and texts that are their own digests. -/
def plainLibrary : Library plainFloats where
  probe := fun _ => .ok (1, 1)
  render := fun source _ _ => .ok source
  digest := utf8
  short := id
  digest_injective := utf8_injective
  short_injective := Function.injective_id

def versionOf (etag : Char) (line : '\n' ≠ etag) : Version :=
  ⟨[etag], "image/png", by simpa using line⟩

/-- The bytes of a version are the letters of its tag. -/
def lettersOf (_ etag : Str) : Octets :=
  utf8 etag

def narrow : Message :=
  req "GET" "/a?w=5"

def oneSource (path : Str) : Option Version :=
  if path = "/a" then some (versionOf '1' (by decide)) else none

/-- A request is answered with a new derivative. -/
def undisturbed : List Action :=
  [.start 0 narrow .null, .call 0 none, .call 0 none, .call 0 none, .call 0 none, .deliver 0]

theorem undisturbed_is_faithful : ∃ state,
    run (step lettersOf plainLibrary) (State.initial oneSource) undisturbed = some state ∧
      Faithful plainLibrary lettersOf state := by
  have executes : (run (step lettersOf plainLibrary) (State.initial oneSource)
      undisturbed).isSome = true := by
    decide +kernel
  obtain ⟨state, executed⟩ := Option.isSome_iff_exists.mp executes
  refine ⟨state, executed, ?_⟩
  apply derivatives_are_faithful plainLibrary lettersOf oneSource _ executed
  decide +kernel

/-- The source changes between the two reads. -/
def disturbed : List Action :=
  [.start 0 narrow .null, .call 0 none, .call 0 none,
    .change "/a" (some (versionOf '2' (by decide))), .call 0 none, .call 0 none]

def narrowOf : Derivative plainFloats where
  sub := "/a"
  etag := "1"
  shape := ⟨some 5, none, .scaleDown, center plainFloats, none, 78⟩
  resolved := .png
  subLine := by decide
  etagLine := by decide

theorem write_between_reads_is_misnamed : ∃ state,
    run (step lettersOf plainLibrary) (State.initial oneSource) disturbed = some state ∧
      ¬ Faithful plainLibrary lettersOf state := by
  have held : ((run (step lettersOf plainLibrary) (State.initial oneSource) disturbed).bind
      fun state => (state.cache (narrowOf.rel plainLibrary)).map Body.bytes) = some (utf8 "2") := by
    decide +kernel
  obtain ⟨state, executed, found⟩ := Option.bind_eq_some_iff.mp held
  obtain ⟨body, cached, bytes⟩ := Option.map_eq_some_iff.mp found
  refine ⟨state, executed, fun faithful => ?_⟩
  have renders := faithful.rendered narrowOf body cached
  rw [bytes] at renders
  exact absurd (Except.ok.inj renders) (by decide)

end Rs2Runtime.Guest.Image
