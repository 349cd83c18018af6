import KubeMQ.Client.Unary
import KubeMQ.Json.Value

/-!
# The list of channels

`ListChannels` (`client_channels.cc`) and `ParseChannelListResponse` (`converter.cc`), which reads
the JSON text that the server sends. The JSON library is a parameter, `parse`; its typed reads are
those of `Json/Value.lean`.
-/

namespace KubeMQ

open Json (Fault Parsed Reader Tracks Value Verdict)

structure ChannelStats where
  messages : Int := 0
  volume : Int := 0
  responses : Int := 0
  waiting : Int := 0
  expired : Int := 0
  delayed : Int := 0
  deriving DecidableEq

structure ChannelInfo where
  name : String := ""
  type : String := ""
  lastActivity : Int := 0
  isActive : Bool := false
  incoming : ChannelStats := {}
  outgoing : ChannelStats := {}
  deriving DecidableEq

/-- The statistics of one direction. -/
def channelStats (j : Value) : Except Fault ChannelStats := do
  let messages ← Reader.ofInt64.value j "messages" 0
  let volume ← Reader.ofInt64.value j "volume" 0
  let responses ← Reader.ofInt64.value j "responses" 0
  let waiting ← Reader.ofInt64.value j "waiting" 0
  let expired ← Reader.ofInt64.value j "expired" 0
  let delayed ← Reader.ofInt64.value j "delayed" 0
  return ⟨messages, volume, responses, waiting, expired, delayed⟩

/-- What the statistics are meant to be. -/
structure StatsOf (j : Value) (s : ChannelStats) : Prop where
  messages : Reader.ofInt64.Member j "messages" 0 s.messages
  volume : Reader.ofInt64.Member j "volume" 0 s.volume
  responses : Reader.ofInt64.Member j "responses" 0 s.responses
  waiting : Reader.ofInt64.Member j "waiting" 0 s.waiting
  expired : Reader.ofInt64.Member j "expired" 0 s.expired
  delayed : Reader.ofInt64.Member j "delayed" 0 s.delayed

def statsVerdict (j : Value) : Verdict :=
  .all (["messages", "volume", "responses", "waiting", "expired", "delayed"].map
    (Reader.ofInt64.valueVerdict j))

def ofStats : Reader ChannelStats where
  get := channelStats
  verdict := statsVerdict
  Is := StatsOf
  tracks j := by
    have reads := Reader.tracks_value Reader.ofInt64 j
    apply Tracks.congr
    · apply (reads "messages" 0).bind
      intro messages
      apply (reads "volume" 0).bind
      intro volume
      apply (reads "responses" 0).bind
      intro responses
      apply (reads "waiting" 0).bind
      intro waiting
      apply (reads "expired" 0).bind
      intro expired
      apply (reads "delayed" 0).bind
      intro delayed
      exact Tracks.pure _
    · intro s
      constructor
      · rintro ⟨_, h₁, _, h₂, _, h₃, _, h₄, _, h₅, _, h₆, rfl⟩
        exact ⟨h₁, h₂, h₃, h₄, h₅, h₆⟩
      · rintro ⟨h₁, h₂, h₃, h₄, h₅, h₆⟩
        exact ⟨_, h₁, _, h₂, _, h₃, _, h₄, _, h₅, _, h₆, rfl⟩

/-- The loop body of `ParseChannelListResponse`. -/
def channelInfo (item : Value) : Except Fault ChannelInfo := do
  let name ← Reader.ofString.value item "name" ""
  let type ← Reader.ofString.value item "type" ""
  let lastActivity ← Reader.ofInt64.value item "lastActivity" 0
  let isActive ← Reader.ofBoolean.value item "isActive" false
  let incoming ← ofStats.nested item "incoming" {}
  let outgoing ← ofStats.nested item "outgoing" {}
  return ⟨name, type, lastActivity, isActive, incoming, outgoing⟩

/-- The channel that an element of the array describes: every member that is present has its type
and its value, the others are defaults. -/
structure InfoOf (item : Value) (info : ChannelInfo) : Prop where
  name : Reader.ofString.Member item "name" "" info.name
  type : Reader.ofString.Member item "type" "" info.type
  lastActivity : Reader.ofInt64.Member item "lastActivity" 0 info.lastActivity
  isActive : Reader.ofBoolean.Member item "isActive" false info.isActive
  incoming : ofStats.Nested item "incoming" {} info.incoming
  outgoing : ofStats.Nested item "outgoing" {} info.outgoing

def infoVerdict (item : Value) : Verdict :=
  .all [Reader.ofString.valueVerdict item "name", Reader.ofString.valueVerdict item "type",
    Reader.ofInt64.valueVerdict item "lastActivity", Reader.ofBoolean.valueVerdict item "isActive",
    ofStats.nestedVerdict item "incoming", ofStats.nestedVerdict item "outgoing"]

def ofInfo : Reader ChannelInfo where
  get := channelInfo
  verdict := infoVerdict
  Is := InfoOf
  tracks item := by
    apply Tracks.congr
    · apply (Reader.tracks_value Reader.ofString item "name" "").bind
      intro name
      apply (Reader.tracks_value Reader.ofString item "type" "").bind
      intro type
      apply (Reader.tracks_value Reader.ofInt64 item "lastActivity" 0).bind
      intro lastActivity
      apply (Reader.tracks_value Reader.ofBoolean item "isActive" false).bind
      intro isActive
      apply (Reader.tracks_nested ofStats item "incoming" {}).bind
      intro incoming
      apply (Reader.tracks_nested ofStats item "outgoing" {}).bind
      intro outgoing
      exact Tracks.pure _
    · intro info
      constructor
      · rintro ⟨_, h₁, _, h₂, _, h₃, _, h₄, _, h₅, _, h₆, rfl⟩
        exact ⟨h₁, h₂, h₃, h₄, h₅, h₆⟩
      · rintro ⟨h₁, h₂, h₃, h₄, h₅, h₆⟩
        exact ⟨_, h₁, _, h₂, _, h₃, _, h₄, _, h₅, _, h₆, rfl⟩

/-- An error without an operation. -/
def channelListError (message : String) : Status := ⟨.kFatal, message, "", "", ""⟩

/-- The two handlers of the `try` block; nothing else is caught. -/
def handled (r : Except Fault (StatusOr (List ChannelInfo))) :
    Except Fault (StatusOr (List ChannelInfo)) :=
  match r with
  | .error (.parseError what) =>
    .ok (.error (channelListError ("failed to parse channel list JSON: " ++ what)))
  | .error (.typeError what) =>
    .ok (.error (channelListError ("unexpected type in channel list JSON: " ++ what)))
  | r => r

def parseChannelListResponse (parse : Body → Parsed) (jsonBody : Body) :
    Except Fault (StatusOr (List ChannelInfo)) :=
  if jsonBody.isEmpty then .ok (.value [])
  else
    handled do
      match ← (parse jsonBody).get with
      | .array items => return .value (← items.mapM channelInfo)
      | _ => return .error (channelListError "expected JSON array in channel list response")

/-- The body is empty or an array of channels, and these are the channels in order. -/
def Lists (parse : Body → Parsed) (jsonBody : Body) (channels : List ChannelInfo) : Prop :=
  if jsonBody = [] then channels = []
  else ∃ items, parse jsonBody = .value (.array items) ∧ List.Forall₂ InfoOf items channels

/-- The response is read: into its channels when it lists any, and else into a `kFatal` error. -/
def ReadExactly (parse : Body → Parsed) (jsonBody : Body) : Prop :=
  (∃ channels, parseChannelListResponse parse jsonBody = .ok (.value channels) ∧
    Lists parse jsonBody channels) ∨
  ∃ s, parseChannelListResponse parse jsonBody = .ok (.error s) ∧ s.code = .kFatal ∧
    ∀ channels, ¬Lists parse jsonBody channels

def listVerdict (items : List Value) : Verdict := .all (items.map infoVerdict)

section Parsing

variable {parse : Body → Parsed} {jsonBody : Body}

lemma lists_iff (hbody : jsonBody ≠ []) {channels : List ChannelInfo} :
    Lists parse jsonBody channels ↔
      ∃ items, parse jsonBody = .value (.array items) ∧ List.Forall₂ InfoOf items channels := by
  rw [Lists, if_neg hbody]

/-- What is parsed but is no array, or is not parsed at all, lists nothing. -/
lemma not_lists (hbody : jsonBody ≠ []) (h : ∀ items, parse jsonBody ≠ .value (.array items)) :
    ∀ channels, ¬Lists parse jsonBody channels := by
  intro channels hl
  obtain ⟨items, hitems, -⟩ := (lists_iff hbody).mp hl
  exact h items hitems

lemma parse_eq (hbody : jsonBody ≠ []) :
    parseChannelListResponse parse jsonBody = handled (do
      match ← (parse jsonBody).get with
      | .array items => return .value (← items.mapM channelInfo)
      | _ => return .error (channelListError "expected JSON array in channel list response")) :=
  if_neg (by simpa [List.isEmpty_iff] using hbody)

/-- An array is read as the verdict of its elements says. -/
lemma readExactly_array {items : List Value} (hbody : jsonBody ≠ [])
    (hparse : parse jsonBody = .value (.array items)) :
    ReadExactly parse jsonBody ↔ listVerdict items = .exact ∨ listVerdict items = .mistyped := by
  have htracks := ofInfo.tracks_mapM items
  have hlists : ∀ channels, Lists parse jsonBody channels ↔ List.Forall₂ InfoOf items channels := by
    intro channels
    rw [lists_iff hbody, hparse]
    constructor
    · rintro ⟨_, heq, h⟩
      cases heq
      exact h
    · intro h
      exact ⟨items, rfl, h⟩
  have hresult : parseChannelListResponse parse jsonBody =
      handled (items.mapM channelInfo >>= fun channels => pure (.value channels)) := by
    rw [parse_eq hbody, hparse]
    rfl
  unfold ReadExactly
  simp only [hresult, hlists]
  show _ ↔ Verdict.all (items.map ofInfo.verdict) = _ ∨ Verdict.all (items.map ofInfo.verdict) = _
  have hget : items.mapM channelInfo = items.mapM ofInfo.get := rfl
  rw [hget]
  generalize items.mapM ofInfo.get = r at htracks
  generalize Verdict.all (items.map ofInfo.verdict) = v at htracks
  cases htracks with
  | exact h => exact iff_of_true (.inl ⟨_, rfl, h⟩) (.inl rfl)
  | mistyped h => exact iff_of_true (.inr ⟨_, rfl, rfl, h⟩) (.inr rfl)
  | altered h =>
    refine iff_of_false ?_ (by decide)
    rintro (⟨channels, -, hc⟩ | ⟨s, hs, -⟩)
    · exact h channels hc
    · cases hs
  | undefined h =>
    refine iff_of_false ?_ (by decide)
    rintro (⟨channels, hc, -⟩ | ⟨s, hs, -⟩)
    · cases hc
    · cases hs

/-- A body that is refused because it holds no array. -/
lemma readExactly_refused (message : String) (hbody : jsonBody ≠ [])
    (hresult : parseChannelListResponse parse jsonBody = .ok (.error (channelListError message)))
    (h : ∀ items, parse jsonBody ≠ .value (.array items)) : ReadExactly parse jsonBody :=
  .inr ⟨_, hresult, rfl, not_lists hbody h⟩

end Parsing

/-- A response is read exactly unless it is not empty and its parsing runs out of range, or it is an
array in which no member has a wrong type but some counter is no 64-bit integer. -/
theorem channel_list_read_iff (parse : Body → Parsed) (jsonBody : Body) :
    ReadExactly parse jsonBody ↔ jsonBody = [] ∨ match parse jsonBody with
      | .value (.array items) => listVerdict items = .exact ∨ listVerdict items = .mistyped
      | .value _ => True
      | .parseError _ => True
      | .outOfRange _ => False := by
  by_cases hbody : jsonBody = []
  · subst hbody
    refine iff_of_true (.inl ⟨[], rfl, ?_⟩) (.inl rfl)
    rw [Lists, if_pos rfl]
  · rw [or_iff_right hbody]
    cases hparse : parse jsonBody with
    | value json =>
      cases json with
      | array items => exact readExactly_array hbody hparse
      | _ =>
        have hresult : parseChannelListResponse parse jsonBody =
            .ok (.error (channelListError "expected JSON array in channel list response")) := by
          rw [parse_eq hbody, hparse]
          rfl
        refine iff_of_true (readExactly_refused _ hbody hresult ?_) trivial
        intro items
        rw [hparse]
        nofun
    | parseError what =>
      have hresult : parseChannelListResponse parse jsonBody =
          .ok (.error (channelListError ("failed to parse channel list JSON: " ++ what))) := by
        rw [parse_eq hbody, hparse]
        rfl
      refine iff_of_true (readExactly_refused _ hbody hresult ?_) trivial
      intro items
      rw [hparse]
      nofun
    | outOfRange what =>
      -- no handler is for `out_of_range`
      have hthrows : parseChannelListResponse parse jsonBody = .error (.outOfRange what) := by
        rw [parse_eq hbody, hparse]
        rfl
      refine iff_of_false ?_ not_false
      rintro (⟨channels, hc, -⟩ | ⟨s, hs, -⟩)
      · rw [hthrows] at hc
        cases hc
      · rw [hthrows] at hs
        cases hs

section Listing

/-- `kInternalChannel`. -/
def kInternalChannel : String := "kubemq.cluster.internal.requests"

def kValidChannelTypeError : String :=
  "invalid channel type; must be one of: events, events_store, commands, queries, queues"

def isValidChannelType (channelType : String) : Bool :=
  channelType == "events" || channelType == "events_store" || channelType == "commands" ||
    channelType == "queries" || channelType == "queues"

def buildChannelManagementRequest (clientId channelName channelType operation requestId : String) :
    Proto.Request where
  requestID := requestId
  requestTypeData := .Query
  clientID := clientId
  channel := kInternalChannel
  metadata := operation
  body := []
  replyChannel := ""
  timeout := 10000
  cacheKey := ""
  cacheTTL := 0
  tags := ((AList.insert "channel" channelName ∅).insert "channel_type" channelType).insert
    "client_id" clientId

namespace Client

def listChannelsRequest (opts : ClientOptions) (uuid : String) (closed : Bool)
    (channelType search : String) : StatusOr Proto.Request :=
  let request := buildChannelManagementRequest opts.clientId "" channelType "list-channels" uuid
  checked [checkClosed closed,
      if !isValidChannelType channelType then
        ⟨.kValidation, kValidChannelTypeError, "ListChannels", "", ""⟩
      else .okStatus]
    (if !search.isEmpty then { request with tags := request.tags.insert "search" search }
    else request)

def listChannelsResponse (parse : Body → Parsed) (request : Proto.Request) :
    StatusOr Proto.Response → Except Fault (StatusOr (List ChannelInfo))
  | .error s => .ok (.error s)
  | .value response =>
    if !response.error.isEmpty then
      .ok (.error ⟨.kFatal, response.error, "ListChannels", "", request.requestID⟩)
    else parseChannelListResponse parse response.body

def listChannels (c : Config) (parse : Body → Parsed) (channelType search : String) (w : World) :
    Except Fault (StatusOr (List ChannelInfo)) × World :=
  unary (listChannelsRequest c.opts c.uuid w.closed channelType search) (fun s => .ok (.error s))
    (GrpcTransport.sendRequest c.net c.opts) (listChannelsResponse parse) w

/-- What `ListChannels` does with the body of a response. -/
lemma listChannels_body {c : Config} {parse : Body → Parsed} {channelType search : String}
    {w : World} {rpc : Rpc} {response : Proto.Response} {message : String}
    (hcalled : w.Called (listChannels c parse channelType search w).2 rpc)
    (hanswer : c.net.sendRequest w.calls.length = (⟨.OK, message⟩, response))
    (herror : response.error = "") :
    (listChannels c parse channelType search w).1 = parseChannelListResponse parse response.body := by
  obtain ⟨q, -, hsent, hresult⟩ := unary_called hcalled
  obtain ⟨-, hreceived⟩ := GrpcTransport.attempt_called hsent
  rw [hanswer] at hreceived
  have hvalue : (GrpcTransport.sendRequest c.net c.opts q w).1 = .value response := hreceived
  have hlisted : (listChannels c parse channelType search w).1 =
      listChannelsResponse parse q (GrpcTransport.sendRequest c.net c.opts q w).1 := hresult
  rw [hlisted, hvalue, listChannelsResponse, herror]
  rfl

end Client

end Listing

/-- The text `[1e400]`. -/
def overflowing : Body :=
  [91, 49, 101, 52, 48, 48, 93]

/-- The text `[{"incoming":{"messages":1.5}}]`. -/
def fractional : Body :=
  [91, 123, 34, 105, 110, 99, 111, 109, 105, 110, 103, 34, 58, 123, 34, 109, 101, 115, 115,
    97, 103, 101, 115, 34, 58, 49, 46, 53, 125, 125, 93]

/-- The text `[{"name":"orders"}]`. -/
def named : Body :=
  [91, 123, 34, 110, 97, 109, 101, 34, 58, 34, 111, 114, 100, 101, 114, 115, 34, 125, 93]

/-- The library on these texts; anything else counts as malformed. -/
def sampleParse (jsonBody : Body) : Parsed :=
  if jsonBody = overflowing then
    .outOfRange "[json.exception.out_of_range.406] number overflow parsing '1e400'"
  else if jsonBody = fractional then
    .value (.array [.object [("incoming", .object [("messages", .float (mkRat 3 2))])]])
  else if jsonBody = named then .value (.array [.object [("name", .string "orders")]])
  else .parseError "[json.exception.parse_error.101] parse error"

/-- A server that answers every request with a text. -/
def listing (jsonBody : Body) : Client.Config :=
  Client.sampleClient "a" ⟨"", "", "", "", jsonBody, false, 0, true, "", ∅⟩

/-- A number that overflows a double makes `ListChannels` throw; a fraction is cut off without a
word. -/
theorem channel_list_misread :
    (Client.listChannels (listing overflowing) sampleParse "events" "" Client.freshWorld).1 =
        .error (.outOfRange "[json.exception.out_of_range.406] number overflow parsing '1e400'") ∧
      ¬ReadExactly sampleParse overflowing ∧
      parseChannelListResponse sampleParse fractional = .ok (.value [{ incoming := { messages := 1 } }]) ∧
      ¬ReadExactly sampleParse fractional := by
  have hthrows : parseChannelListResponse sampleParse overflowing = .error (.outOfRange _) := rfl
  have hcut : parseChannelListResponse sampleParse fractional =
      .ok (.value [{ incoming := { messages := 1 } }]) := rfl
  refine ⟨rfl, ?_, hcut, ?_⟩
  · rintro (⟨channels, hc, -⟩ | ⟨s, hs, -⟩)
    · rw [hthrows] at hc
      cases hc
    · rw [hthrows] at hs
      cases hs
  · rintro (⟨channels, hc, hl⟩ | ⟨s, hs, -⟩)
    · rw [hcut] at hc
      cases hc
      obtain ⟨items, hitems, hall⟩ := (lists_iff (by decide)).mp hl
      cases hitems
      cases hall with
      | cons hinfo _ => cases (hinfo.incoming : StatsOf _ _).messages.2
    · rw [hcut] at hs
      cases hs

example : parseChannelListResponse sampleParse named = .ok (.value [{ name := "orders" }]) := rfl

end KubeMQ
