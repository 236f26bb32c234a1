import TelepathyFacebook.Soup

/-!
# HTTP requests

`fb_http_request_new` and `fb_http_request_send` of `bitlbee-compat/facebook-http.c`.  A
request is sent with the parameters as a form, in the body of a POST and behind a question
mark at the end of the URL of a GET.  Without parameters there is no form, and
a POST then takes the length of NULL.

`sent_iff`: the headers and the parameters arrive exactly when the URI has a host, the headers
are such and leave the content type of a POST to the form, and the parameters can be sent: a
POST has some, and a GET has none or its URL has no query and no fragment.
-/

namespace TelepathyFacebook

/-- `FbHttpRequestPrivate`. -/
structure FbHttpRequest where
  /-- NULL when there is no message for the URL. -/
  msg : Option SoupMessage
  url : String
  post : Bool
  headers : FbHttpValues
  params : FbHttpValues

namespace FbHttpRequest

/-- `fb_http_request_new`, with tables that have no entry yet. -/
def new (P : UriParser) (url : String) (post : Bool) : FbHttpRequest where
  msg := soupMessageNew P (if post then .post else .get) url
  url := url
  post := post
  headers := fbHttpValuesNew
  params := fbHttpValuesNew

/-- The variable `query`: the form of the parameters, NULL if there are none. -/
def query (F : SoupForm) (O : HashTable.Order String String) (req : FbHttpRequest) :
    Option String :=
  if req.params.entries.length ≠ 0 then some (F.encodeHash (O.order req.params.entries))
  else none

/-- The content type of a form. -/
def formType : String := "application/x-www-form-urlencoded"

/-- Give a message its parameters: a POST as its body, where the length of NULL is a crash, and
a GET in a new URI.  An accepted URL is accepted with the query as well
(`UriParser.isSome_glued`). -/
def setParams (P : UriParser) (F : SoupForm) (O : HashTable.Order String String)
    (req : FbHttpRequest) (msg : SoupMessage) : Option SoupMessage :=
  if req.post then (req.query F O).map (soupMessageSetRequest msg formType)
  else
    match req.query F O with
    | none => some msg
    | some query => (P.uriNew (req.url ++ "?" ++ query)).map fun uri ↦ { msg with uri := uri }

/-- `fb_http_request_send`: the messages of the session after it; a crash is `none`. -/
def send (P : UriParser) (F : SoupForm) (O : HashTable.Order String String)
    (req : FbHttpRequest) (session : List SoupMessage) : Option (List SoupMessage) :=
  match req.msg with
  | none =>
      -- `hdrs` is not set, and what libsoup is asked to do with NULL it does not do.
      if req.headers.entries ≠ [] ∨ (req.post ∧ req.query F O = none) then none else some session
  | some msg =>
      let requestHeaders := (O.order req.headers.entries).foldl headersAppend msg.requestHeaders
      (setParams P F O req { msg with requestHeaders := requestHeaders }).map fun msg ↦
        session ++ [msg]

/-! ## What is asked of a request -/

/-- The parameters that a receiver decodes from a query. -/
def queryParams (F : SoupForm) (query : Option String) : List (String × String) :=
  (query.map F.decode).getD []

/-- A message brings the parameters: a POST in its body, a GET in the query of its URI,
next to those of the URL itself. -/
def Brings (F : SoupForm) (req : FbHttpRequest) (msg : SoupMessage) : Prop :=
  if req.post then ∃ body, msg.requestBody = some body ∧ (F.decode body).Perm req.params.entries
  else (queryParams F msg.uri.query).Perm
    (queryParams F (queryPart req.url) ++ req.params.entries)

/-- The header with which a POST names the type of its body. -/
def formHeader : String × String := ("Content-Type", formType)

/-- The headers of a message are those of the table, each once, but for the case of their
names; a POST may have one of its own besides. -/
def GivesHeaders (req : FbHttpRequest) (requestHeaders : List (String × String)) : Prop :=
  ∃ own, (own = [] ∨ req.post = true ∧ own = [formHeader]) ∧
    (requestHeaders.map headerKey).Perm ((req.headers.entries ++ own).map headerKey)

/-- A request is sent well: one message is queued, with each header once, and it brings
the parameters. -/
def SentWell (P : UriParser) (F : SoupForm) (O : HashTable.Order String String)
    (req : FbHttpRequest) (session : List SoupMessage) : Prop :=
  ∃ msg, send P F O req session = some (session ++ [msg]) ∧
    GivesHeaders req msg.requestHeaders ∧ Brings F req msg

/-- The text has neither a query nor a fragment. -/
def Plain (url : String) : Prop := '?' ∉ url.toList ∧ '#' ∉ url.toList

instance (url : String) : Decidable (Plain url) := inferInstanceAs (Decidable (_ ∧ _))

/-- The header names a content type. -/
def isContentType (p : String × String) : Bool := soupStrCaseEqual p.1 "Content-Type"

/-- The content types of a table of headers. -/
def contentTypes (headers : FbHttpValues) : List String :=
  (headers.entries.filter isContentType).map Prod.snd

/-- The headers can be sent: they are such, and leave the content type of a POST to its form
or name the same one. -/
structure SendableHeaders (req : FbHttpRequest) : Prop where
  headers : ∀ p ∈ req.headers.entries, IsHeader p
  contentType : req.post = true →
    contentTypes req.headers = [] ∨ contentTypes req.headers = [formType]

/-- The parameters can be sent. -/
def SendableParams (req : FbHttpRequest) : Prop :=
  if req.post then req.params.entries ≠ [] else req.params.entries = [] ∨ Plain req.url

/-- The request can be sent. -/
structure Sendable (P : UriParser) (req : FbHttpRequest) : Prop where
  host : HasHost P.uriNew req.url
  headers : SendableHeaders req
  params : SendableParams req

variable {P : UriParser} {F : SoupForm} {O : HashTable.Order String String}
  {req : FbHttpRequest} {session : List SoupMessage}

/-! ## Headers -/

/-- The headers that libsoup takes. -/
def takenHeaders (O : HashTable.Order String String) (req : FbHttpRequest) :
    List (String × String) :=
  (O.order req.headers.entries).filter (IsHeader ·)

theorem isHeader_formHeader : IsHeader formHeader := by decide +kernel

theorem requestHeaders_setRequest (msg : SoupMessage) (query : String) :
    (soupMessageSetRequest msg formType query).requestHeaders =
      headersReplace msg.requestHeaders formHeader := by
  rw [soupMessageSetRequest, formHeader]

theorem isContentType_iff (p : String × String) :
    isContentType p ↔ httpKeying.fold p.1 = httpKeying.fold "Content-Type" :=
  soupStrCaseEqual_iff _ _

theorem contentTypes_eq_nil_iff (headers : FbHttpValues) :
    contentTypes headers = [] ↔ ∀ p ∈ headers.entries, isContentType p = false := by
  simp [contentTypes]

/-- The content type is that of a form exactly when the only header that names one is, but
for the case of its name, that of the form. -/
theorem contentTypes_eq_formType_iff (headers : FbHttpValues) :
    contentTypes headers = [formType] ↔
      (headers.entries.filter isContentType).map headerKey = [headerKey formHeader] := by
  have hkey (p : String × String) (hp : isContentType p = true) :
      headerKey p = headerKey formHeader ↔ p.2 = formType := by
    rw [isContentType_iff] at hp
    simp [headerKey, hp, formHeader]
  simp only [contentTypes, List.map_eq_singleton_iff]
  refine exists_congr fun p ↦ and_congr_right fun hfilter ↦ (hkey p ?_).symm
  have hmem : p ∈ headers.entries.filter isContentType := by simp [hfilter]
  exact (List.mem_filter.mp hmem).2

/-- A filter that leaves as many entries as there are takes all. -/
theorem forall_of_length_filter {l l' : List (String × String)} {q : String × String → Bool}
    (hperm : l.Perm l') (h : (l.filter q).length = l'.length) : ∀ p ∈ l', q p = true := by
  intro p hp
  rw [← hperm.length_eq, List.length_filter_eq_length_iff] at h
  exact h p (hperm.mem_iff.mpr hp)

/-- Headers of a message are such. -/
theorem forall_isHeader_of_perm {l l' : List (String × String)}
    (hperm : (l.map headerKey).Perm (l'.map headerKey)) (h : ∀ p ∈ l, IsHeader p) :
    ∀ p ∈ l', IsHeader p := by
  intro p hp
  obtain ⟨q, hq, hkey⟩ := List.mem_map.mp (hperm.mem_iff.mpr (List.mem_map_of_mem hp))
  exact (isHeader_congr hkey).mp (h q hq)

theorem takenHeaders_perm (h : ∀ p ∈ req.headers.entries, IsHeader p) :
    (takenHeaders O req).Perm req.headers.entries := by
  have hall : takenHeaders O req = O.order req.headers.entries := by
    rw [takenHeaders, List.filter_eq_self]
    exact fun p hp ↦ decide_eq_true (h p ((O.perm _).mem_iff.mp hp))
  exact hall ▸ O.perm _

theorem headersReplace_formHeader (headers : List (String × String)) :
    headersReplace headers formHeader =
      headers.filter (fun p ↦ !isContentType p) ++ [formHeader] := by
  rw [headersReplace, headersAppend, if_pos isHeader_formHeader]
  rfl

/-- With the header of a form in the place of those that name a content type, the headers are
those that there were, exactly when the only such was the header of the form. -/
theorem replaced_perm_iff {l l' : List (String × String)} (hperm : l.Perm l') :
    ((l.filter (fun p ↦ !isContentType p) ++ [formHeader]).map headerKey).Perm
        (l'.map headerKey) ↔
      (l'.filter isContentType).map headerKey = [headerKey formHeader] := by
  have hsplit : (l'.map headerKey).Perm ((l.filter fun p ↦ !isContentType p).map headerKey ++
      (l'.filter isContentType).map headerKey) := by
    rw [← List.map_append]
    refine List.Perm.map _ ?_
    calc l'.Perm (l'.filter isContentType ++ l'.filter fun p ↦ !isContentType p) :=
          (List.filter_append_perm isContentType l').symm
      List.Perm _ (l'.filter (fun p ↦ !isContentType p) ++ l'.filter isContentType) :=
          List.perm_append_comm
      List.Perm _ (l.filter (fun p ↦ !isContentType p) ++ l'.filter isContentType) :=
          (hperm.symm.filter _).append_right _
  rw [hsplit.congr_right, List.map_append, List.perm_append_left_iff, List.map_singleton,
    List.singleton_perm, eq_comm]

/-- The headers of a GET are given when they are such. -/
theorem givesHeaders_get_iff (h : req.post = false) :
    GivesHeaders req (takenHeaders O req) ↔ ∀ p ∈ req.headers.entries, IsHeader p := by
  constructor
  · rintro ⟨own, hown | ⟨hpost, -⟩, hperm⟩
    · rw [hown, List.append_nil] at hperm
      exact forall_isHeader_of_perm hperm fun p hp ↦ of_decide_eq_true (List.mem_filter.mp hp).2
    · exact absurd hpost (by simp [h])
  · intro hall
    exact ⟨[], .inl rfl, by rw [List.append_nil]; exact (takenHeaders_perm hall).map _⟩

/-- Those of a POST when the content type is left to the form as well. -/
theorem givesHeaders_post_iff (h : req.post = true) :
    GivesHeaders req (headersReplace (takenHeaders O req) formHeader) ↔
      (∀ p ∈ req.headers.entries, IsHeader p) ∧
        (contentTypes req.headers = [] ∨ contentTypes req.headers = [formType]) := by
  rw [headersReplace_formHeader]
  constructor
  · rintro ⟨own, rfl | ⟨-, rfl⟩, hperm⟩
    · -- The table has the header of the form itself.
      rw [List.append_nil] at hperm
      have hall : ∀ p ∈ req.headers.entries, IsHeader p := by
        refine forall_isHeader_of_perm hperm fun p hp ↦ ?_
        obtain hp | hp := List.mem_append.mp hp
        · exact of_decide_eq_true (List.mem_filter.mp (List.mem_filter.mp hp).1).2
        · exact List.mem_singleton.mp hp ▸ isHeader_formHeader
      exact ⟨hall, .inr ((contentTypes_eq_formType_iff _).mpr
        ((replaced_perm_iff (takenHeaders_perm hall)).mp hperm))⟩
    · -- The header of the form is one more.
      have hlen := hperm.length_eq
      simp only [List.length_map, List.length_append, List.length_singleton,
        Nat.add_right_cancel_iff, takenHeaders, List.filter_filter] at hlen
      have hall := forall_of_length_filter (O.perm _) hlen
      simp only [Bool.and_eq_true, Bool.not_eq_true', decide_eq_true_eq] at hall
      exact ⟨fun p hp ↦ (hall p hp).2,
        .inl ((contentTypes_eq_nil_iff _).mpr fun p hp ↦ (hall p hp).1)⟩
  · rintro ⟨hall, hnil | hform⟩
    · have hnone : (takenHeaders O req).filter (fun p ↦ !isContentType p) =
          takenHeaders O req := by
        rw [List.filter_eq_self]
        intro p hp
        rw [(contentTypes_eq_nil_iff _).mp hnil p ((takenHeaders_perm hall).mem_iff.mp hp)]
        rfl
      refine ⟨[formHeader], .inr ⟨h, rfl⟩, ?_⟩
      rw [hnone]
      exact ((takenHeaders_perm hall).append_right _).map _
    · refine ⟨[], .inl rfl, ?_⟩
      rw [List.append_nil, replaced_perm_iff (takenHeaders_perm hall)]
      exact (contentTypes_eq_formType_iff _).mp hform

/-! ## Messages -/

theorem sendable_iff (h : HasHost P.uriNew req.url) :
    Sendable P req ↔ SendableHeaders req ∧ SendableParams req := by
  constructor
  · intro hsendable
    exact ⟨hsendable.headers, hsendable.params⟩
  · rintro ⟨hheaders, hparams⟩
    exact ⟨h, hheaders, hparams⟩

theorem query_of_nil (h : req.params.entries = []) : req.query F O = none := by
  simp [query, h]

theorem query_of_ne_nil (h : req.params.entries ≠ []) :
    req.query F O = some (F.encodeHash (O.order req.params.entries)) := by
  simp [query, h]

/-- The parameters come back from their form. -/
theorem perm_params : (F.decode (F.encodeHash (O.order req.params.entries))).Perm
    req.params.entries := by
  have hperm := O.perm req.params.entries
  have hnames : (req.params.entries.map Prod.fst).Nodup := by
    apply List.Nodup.of_map httpKeying.tag
    rw [List.map_map]
    exact req.params.nodup
  exact (F.decode_encodeHash _ ((hperm.map Prod.fst).nodup_iff.mpr hnames)).trans hperm

/-- What a new message is sent with. -/
theorem sentWell_iff {msg : SoupMessage} (hmsg : req.msg = some msg)
    (hheaders : msg.requestHeaders = []) :
    SentWell P F O req session ↔
      ∃ msg', setParams P F O req { msg with requestHeaders := takenHeaders O req } = some msg' ∧
        GivesHeaders req msg'.requestHeaders ∧ Brings F req msg' := by
  have hsend : send P F O req session =
      (setParams P F O req { msg with requestHeaders := takenHeaders O req }).map fun msg ↦
        session ++ [msg] := by
    simp only [send, hmsg, hheaders, foldl_headersAppend, List.nil_append, takenHeaders]
  rw [SentWell, hsend]
  constructor
  · rintro ⟨msg', hmsg', hwell⟩
    obtain ⟨msg'', hset, hmsg''⟩ := Option.map_eq_some_iff.mp hmsg'
    obtain rfl : msg'' = msg' := by simpa using hmsg''
    exact ⟨msg'', hset, hwell⟩
  · rintro ⟨msg', hset, hwell⟩
    exact ⟨msg', by rw [hset, Option.map_some], hwell⟩

/-- **POST.**  The body brings the parameters if there are any. -/
theorem sentWell_post_iff (hpost : req.post = true) {msg : SoupMessage}
    (hmsg : req.msg = some msg) (hheaders : msg.requestHeaders = []) :
    SentWell P F O req session ↔ SendableHeaders req ∧ req.params.entries ≠ [] := by
  have hgiven := givesHeaders_post_iff (O := O) hpost
  rw [sentWell_iff hmsg hheaders, setParams, if_pos hpost]
  constructor
  · rintro ⟨msg', hset, hgives, -⟩
    obtain ⟨query, hquery, rfl⟩ := Option.map_eq_some_iff.mp hset
    rw [requestHeaders_setRequest] at hgives
    obtain ⟨hall, htypes⟩ := hgiven.mp hgives
    refine ⟨⟨hall, fun _ ↦ htypes⟩, fun hnil ↦ ?_⟩
    rw [query_of_nil hnil] at hquery
    cases hquery
  · rintro ⟨⟨hall, htypes⟩, hne⟩
    rw [query_of_ne_nil hne]
    refine ⟨_, rfl, ?_, ?_⟩
    · rw [requestHeaders_setRequest]
      exact hgiven.mpr ⟨hall, htypes hpost⟩
    · rw [Brings, if_pos hpost]
      exact ⟨_, rfl, perm_params⟩

/-- **GET.**  The headers stay as they were appended. -/
theorem sentWell_get_iff (hget : req.post = false) {msg : SoupMessage}
    (hmsg : req.msg = some msg) (hheaders : msg.requestHeaders = []) :
    SentWell P F O req session ↔ SendableHeaders req ∧
      ∃ msg', setParams P F O req { msg with requestHeaders := takenHeaders O req } = some msg' ∧
        Brings F req msg' := by
  have hgiven := givesHeaders_get_iff (O := O) hget
  have hleft {msg msg' : SoupMessage} (hset : setParams P F O req msg = some msg') :
      msg'.requestHeaders = msg.requestHeaders := by
    rw [setParams, hget, if_neg Bool.false_ne_true] at hset
    split at hset
    · obtain rfl := Option.some.inj hset
      rfl
    · obtain ⟨uri, -, rfl⟩ := Option.map_eq_some_iff.mp hset
      rfl
  have hheaders_iff : SendableHeaders req ↔ ∀ p ∈ req.headers.entries, IsHeader p :=
    ⟨fun h ↦ h.headers, fun h ↦ ⟨h, fun hpost ↦ absurd hpost (by simp [hget])⟩⟩
  rw [sentWell_iff hmsg hheaders, hheaders_iff, ← hgiven]
  constructor
  · rintro ⟨msg', hset, hgives, hbrings⟩
    rw [hleft hset] at hgives
    exact ⟨hgives, msg', hset, hbrings⟩
  · rintro ⟨hgives, msg', hset, hbrings⟩
    exact ⟨msg', hset, by rwa [hleft hset], hbrings⟩

/-- **GET**, without parameters: the URL stays as it is. -/
theorem setParams_get_of_nil (hget : req.post = false) (hnil : req.params.entries = [])
    {msg : SoupMessage} (hquery : msg.uri.query = queryPart req.url) :
    ∃ msg', setParams P F O req msg = some msg' ∧ Brings F req msg' := by
  have hpost : ¬ req.post = true := by simp [hget]
  rw [setParams, if_neg hpost, query_of_nil hnil]
  refine ⟨msg, rfl, ?_⟩
  rw [Brings, if_neg hpost, hquery, hnil, List.append_nil]

/-- **GET**, with parameters: what is decoded is the query of the glued URL. -/
theorem setParams_get_iff (hget : req.post = false) (hne : req.params.entries ≠ [])
    (hurl : (P.uriNew req.url).isSome) (msg : SoupMessage) :
    (∃ msg', setParams P F O req msg = some msg' ∧ Brings F req msg') ↔
      (queryParams F (queryPart
        (req.url ++ "?" ++ F.encodeHash (O.order req.params.entries)))).Perm
          (queryParams F (queryPart req.url) ++ req.params.entries) := by
  have hpost : ¬ req.post = true := by simp [hget]
  obtain ⟨uri, huri⟩ := Option.isSome_iff_exists.mp
    (P.isSome_glued hurl (F.encodeHash (O.order req.params.entries)))
  rw [setParams, if_neg hpost, query_of_ne_nil hne]
  simp only [huri, Option.map_some, Option.some.injEq, exists_eq_left', Brings, if_neg hpost,
    P.query_eq _ _ huri]

/-- A form behind a plain URL is its query. -/
theorem perm_of_plain (h : Plain req.url) :
    (queryParams F (queryPart (req.url ++ "?" ++ F.encodeHash (O.order req.params.entries)))).Perm
      (queryParams F (queryPart req.url) ++ req.params.entries) := by
  have hnone : queryPart req.url = none := by
    rw [queryPart, beforeFragment_of_notMem h.2, splitFirst_of_notMem h.1]
    rfl
  rw [queryPart_glued h.2 (F.encodeHash_hash _), hnone]
  exact perm_params

/-- A form behind a URL with a query or a fragment is not. -/
theorem not_perm_of_not_plain (hne : req.params.entries ≠ []) (h : ¬ Plain req.url) :
    ¬ (queryParams .urlencoded (queryPart
      (req.url ++ "?" ++ SoupForm.urlencoded.encodeHash (O.order req.params.entries)))).Perm
        (queryParams .urlencoded (queryPart req.url) ++ req.params.entries) := by
  intro hperm
  by_cases hfrag : '#' ∈ req.url.toList
  · -- The form is part of the fragment.
    rw [queryPart_behind_fragment hfrag] at hperm
    have hlen := hperm.length_eq
    rw [List.length_append] at hlen
    exact hne (List.eq_nil_of_length_eq_zero (by omega))
  · -- The form is glued to the query of the URL.
    have hmark : '?' ∈ req.url.toList := by
      by_contra hmark
      exact h ⟨hmark, hfrag⟩
    obtain ⟨front, own, hsplit, hfront⟩ := List.eq_append_cons_of_mem hmark
    have hown : queryPart req.url = some (String.ofList own) := by
      rw [queryPart, beforeFragment_of_notMem hfrag, hsplit, splitFirst_append hfront]
      rfl
    rw [queryPart_glued hfrag (SoupForm.urlencoded.encodeHash_hash _), hown] at hperm
    have horder : O.order req.params.entries ≠ [] :=
      fun hnil ↦ hne ((hnil ▸ O.perm req.params.entries).nil_eq).symm
    refine FormEncoding.decode_glued_not_perm (String.ofList own) horder (hperm.trans ?_)
    exact (O.perm req.params.entries).symm.append_left _

end FbHttpRequest

end TelepathyFacebook
