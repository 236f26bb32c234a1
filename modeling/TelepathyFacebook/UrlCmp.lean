import Mathlib.Data.List.Infix
import Mathlib.Data.Set.Basic
import TelepathyFacebook.Soup

/-!
# Comparing URLs

`fb_http_urlcmp` of `bitlbee-compat/facebook-http.c`.  URLs are compared by their
components, but a URL that occurs inside the other is taken for equal before that.

* `fbHttpUrlcmp_iff`: two URLs with hosts compare equal when one occurs in the other or
  their components are the same.
* `comparesBy_iff`: on a set of URLs the function is the comparison of the components
  exactly when no URL of the set occurs in another one with other components.
-/

namespace TelepathyFacebook

/-- `strstr`: the second text occurs in the first. -/
def Occurs (haystack needle : String) : Prop := needle.toList <:+: haystack.toList

instance (haystack needle : String) : Decidable (Occurs haystack needle) :=
  inferInstanceAs (Decidable (_ <:+: _))

/-- `g_ascii_strcasecmp` finds two strings equal. -/
def strcaseEqual (s t : String) : Bool := gAsciiStrcasecmp (cBytes s) (cBytes t) = 0

/-- The comparison of the components of two URIs. -/
def uriEqual (purl1 purl2 : SoupUri) (protocol : Bool) : Bool :=
  let ret :=
    match purl1.host, purl2.host with
    | some host1, some host2 =>
        strcaseEqual host1 host2 && purl1.path == purl2.path && purl1.user == purl2.user &&
          purl1.password == purl2.password
    | _, _ => false
  if ret && protocol then strcaseEqual purl1.scheme purl2.scheme && purl1.port == purl2.port
  else ret

/-- `fb_http_urlcmp`. -/
def fbHttpUrlcmp (uriNew : String → Option SoupUri) (url1 url2 : Option String)
    (protocol : Bool) : Bool :=
  match url1, url2 with
  | some url1, some url2 =>
      if Occurs url1 url2 ∨ Occurs url2 url1 then true
      else
        match uriNew url1, uriNew url2 with
        | some purl1, some purl2 => uriEqual purl1 purl2 protocol
        | _, _ => strcaseEqual url1 url2
  | none, none => true
  | _, _ => false

/-- A text without regard to ASCII case. -/
def caseFold (s : String) : List UInt8 := (cBytes s).map toLower

/-- What two URIs are to be compared by, with the protocol also the scheme and port. -/
structure UriComponents where
  host : Option (List UInt8)
  path : String
  user : Option String
  password : Option String
  protocol : Option (List UInt8 × Nat)
deriving DecidableEq

/-- The components of a URI. -/
def components (protocol : Bool) (uri : SoupUri) : UriComponents where
  host := uri.host.map caseFold
  path := uri.path
  user := uri.user
  password := uri.password
  protocol := if protocol then some (caseFold uri.scheme, uri.port) else none

/-- The components of a URL. -/
def urlComponents (uriNew : String → Option SoupUri) (protocol : Bool) (url : String) :
    Option UriComponents :=
  (uriNew url).map (components protocol)

theorem strcaseEqual_iff (s t : String) : strcaseEqual s t ↔ caseFold s = caseFold t := by
  rw [strcaseEqual, decide_eq_true_iff]
  exact gAsciiStrcasecmp_eq_zero_iff (zero_notMem_cBytes s) (zero_notMem_cBytes t)

/-- The comparison with the protocol is that without it, and of the scheme and port. -/
theorem uriEqual_true (purl1 purl2 : SoupUri) :
    uriEqual purl1 purl2 true ↔ uriEqual purl1 purl2 false ∧
      caseFold purl1.scheme = caseFold purl2.scheme ∧ purl1.port = purl2.port := by
  rw [← strcaseEqual_iff]
  simp [uriEqual]

theorem components_true_iff (purl1 purl2 : SoupUri) :
    components true purl1 = components true purl2 ↔
      components false purl1 = components false purl2 ∧
        caseFold purl1.scheme = caseFold purl2.scheme ∧ purl1.port = purl2.port := by
  simp [components, and_assoc]

/-- URIs with hosts are compared by their components. -/
theorem uriEqual_iff {purl1 purl2 : SoupUri} (h1 : purl1.host.isSome) (h2 : purl2.host.isSome)
    (protocol : Bool) :
    uriEqual purl1 purl2 protocol ↔ components protocol purl1 = components protocol purl2 := by
  obtain ⟨host1, h1⟩ := Option.isSome_iff_exists.mp h1
  obtain ⟨host2, h2⟩ := Option.isSome_iff_exists.mp h2
  have hfalse : uriEqual purl1 purl2 false ↔ components false purl1 = components false purl2 := by
    simp [uriEqual, components, h1, h2, strcaseEqual_iff, and_assoc]
  cases protocol with
  | false => exact hfalse
  | true => rw [uriEqual_true, components_true_iff, hfalse]

variable {uriNew : String → Option SoupUri}

/-- The components with the protocol determine those without. -/
theorem urlComponents_weaken {url1 url2 : String}
    (h : urlComponents uriNew true url1 = urlComponents uriNew true url2) (protocol : Bool) :
    urlComponents uriNew protocol url1 = urlComponents uriNew protocol url2 := by
  cases protocol with
  | true => exact h
  | false =>
      rw [urlComponents, urlComponents] at h ⊢
      revert h
      match uriNew url1, uriNew url2 with
      | none, none => exact fun _ ↦ rfl
      | none, some _ => exact fun h ↦ nomatch h
      | some _, none => exact fun h ↦ nomatch h
      | some _, some _ =>
          exact fun h ↦ congrArg some ((components_true_iff _ _).mp (Option.some.inj h)).1

/-- **Two URLs** with hosts compare equal when one occurs in the other or their components
are the same. -/
theorem fbHttpUrlcmp_iff {url1 url2 : String} (h1 : HasHost uriNew url1)
    (h2 : HasHost uriNew url2) (protocol : Bool) :
    fbHttpUrlcmp uriNew (some url1) (some url2) protocol ↔
      (Occurs url1 url2 ∨ Occurs url2 url1) ∨
        urlComponents uriNew protocol url1 = urlComponents uriNew protocol url2 := by
  obtain ⟨purl1, hpurl1, hhost1⟩ := h1
  obtain ⟨purl2, hpurl2, hhost2⟩ := h2
  rw [fbHttpUrlcmp, urlComponents, urlComponents, hpurl1, hpurl2, Option.map_some,
    Option.map_some, Option.some.injEq, ← uriEqual_iff hhost1 hhost2 protocol]
  split
  · next h => simp [h]
  · next h => simp [h]

/-- On the URLs of a set the function is the comparison of their components. -/
structure ComparesBy (uriNew : String → Option SoupUri) (urls : Set String) : Prop where
  exact : ∀ url1 ∈ urls, ∀ url2 ∈ urls, ∀ protocol,
    (fbHttpUrlcmp uriNew (some url1) (some url2) protocol ↔
      urlComponents uriNew protocol url1 = urlComponents uriNew protocol url2)
  refl : ∀ url ∈ urls, ∀ protocol, fbHttpUrlcmp uriNew (some url) (some url) protocol
  symm : ∀ url1 ∈ urls, ∀ url2 ∈ urls, ∀ protocol,
    fbHttpUrlcmp uriNew (some url1) (some url2) protocol →
      fbHttpUrlcmp uriNew (some url2) (some url1) protocol
  trans : ∀ url1 ∈ urls, ∀ url2 ∈ urls, ∀ url3 ∈ urls, ∀ protocol,
    fbHttpUrlcmp uriNew (some url1) (some url2) protocol →
      fbHttpUrlcmp uriNew (some url2) (some url3) protocol →
        fbHttpUrlcmp uriNew (some url1) (some url3) protocol
  weaken : ∀ url1 ∈ urls, ∀ url2 ∈ urls, fbHttpUrlcmp uriNew (some url1) (some url2) true →
    fbHttpUrlcmp uriNew (some url1) (some url2) false
  /-- The shortcut answers TRUE only where the comparison of the URIs does. -/
  shortcut : ∀ url1 ∈ urls, ∀ url2 ∈ urls, ∀ protocol purl1 purl2,
    Occurs url1 url2 ∨ Occurs url2 url1 → uriNew url1 = some purl1 → uriNew url2 = some purl2 →
      uriEqual purl1 purl2 protocol

/-- **When URLs are compared by their components.**  On a set of URLs with hosts, the
function is the comparison of the components if and only if no URL of the set occurs in
another one whose components, with scheme and port, are not the same. -/
theorem comparesBy_iff {urls : Set String} (h : ∀ url ∈ urls, HasHost uriNew url) :
    ComparesBy uriNew urls ↔ ∀ url1 ∈ urls, ∀ url2 ∈ urls, Occurs url1 url2 →
      urlComponents uriNew true url1 = urlComponents uriNew true url2 := by
  constructor
  · intro hcmp url1 h1 url2 h2 hoccurs
    rw [← hcmp.exact url1 h1 url2 h2 true, fbHttpUrlcmp_iff (h url1 h1) (h url2 h2)]
    exact .inl (.inl hoccurs)
  · intro hoccurs
    have hsame {url1 url2 : String} (h1 : url1 ∈ urls) (h2 : url2 ∈ urls)
        (hor : Occurs url1 url2 ∨ Occurs url2 url1) (protocol : Bool) :
        urlComponents uriNew protocol url1 = urlComponents uriNew protocol url2 := by
      rcases hor with hor | hor
      · exact urlComponents_weaken (hoccurs url1 h1 url2 h2 hor) protocol
      · exact (urlComponents_weaken (hoccurs url2 h2 url1 h1 hor) protocol).symm
    have hexact {url1 url2 : String} (h1 : url1 ∈ urls) (h2 : url2 ∈ urls) (protocol : Bool) :
        fbHttpUrlcmp uriNew (some url1) (some url2) protocol ↔
          urlComponents uriNew protocol url1 = urlComponents uriNew protocol url2 := by
      rw [fbHttpUrlcmp_iff (h url1 h1) (h url2 h2)]
      exact or_iff_right_of_imp fun hor ↦ hsame h1 h2 hor protocol
    refine ⟨fun url1 h1 url2 h2 protocol ↦ hexact h1 h2 protocol,
      fun url h1 protocol ↦ (hexact h1 h1 protocol).mpr rfl,
      fun url1 h1 url2 h2 protocol h12 ↦ ?_,
      fun url1 h1 url2 h2 url3 h3 protocol h12 h23 ↦ ?_, fun url1 h1 url2 h2 h12 ↦ ?_,
      fun url1 h1 url2 h2 protocol purl1 purl2 hor hpurl1 hpurl2 ↦ ?_⟩
    · exact (hexact h2 h1 protocol).mpr ((hexact h1 h2 protocol).mp h12).symm
    · exact (hexact h1 h3 protocol).mpr
        (((hexact h1 h2 protocol).mp h12).trans ((hexact h2 h3 protocol).mp h23))
    · exact (hexact h1 h2 false).mpr (urlComponents_weaken ((hexact h1 h2 true).mp h12) false)
    · obtain ⟨uri1, huri1, hhost1⟩ := h url1 h1
      obtain ⟨uri2, huri2, hhost2⟩ := h url2 h2
      obtain rfl : uri1 = purl1 := Option.some.inj (huri1.symm.trans hpurl1)
      obtain rfl : uri2 = purl2 := Option.some.inj (huri2.symm.trans hpurl2)
      rw [uriEqual_iff hhost1 hhost2]
      have hcomponents := hsame h1 h2 hor protocol
      rwa [urlComponents, urlComponents, huri1, huri2, Option.map_some, Option.map_some,
        Option.some.injEq] at hcomponents

/-- Two URLs that do not occur in each other. -/
theorem comparesBy_two :
    ComparesBy UriParser.hierarchical.uriNew {"http://h/a", "http://H/a"} := by
  have hhost : ∀ url ∈ ({"http://h/a", "http://H/a"} : Set String),
      HasHost UriParser.hierarchical.uriNew url := by
    rintro url (rfl | rfl)
    · exact ⟨_, rfl, rfl⟩
    · exact ⟨_, rfl, rfl⟩
  apply (comparesBy_iff hhost).mpr
  rintro url1 (rfl | rfl) url2 (rfl | rfl) - <;> decide +kernel

/-- A URL that is continued compares equal to it. -/
theorem longer_path_equal :
    HasHost UriParser.hierarchical.uriNew "http://h/a" ∧
      HasHost UriParser.hierarchical.uriNew "http://h/ab" ∧
        ¬ ComparesBy UriParser.hierarchical.uriNew {"http://h/a", "http://h/ab"} := by
  refine ⟨⟨_, rfl, rfl⟩, ⟨_, rfl, rfl⟩, fun h ↦ ?_⟩
  have hequal : fbHttpUrlcmp UriParser.hierarchical.uriNew (some "http://h/ab")
      (some "http://h/a") false := by decide +kernel
  have hpath : urlComponents UriParser.hierarchical.uriNew false "http://h/ab" ≠
      urlComponents UriParser.hierarchical.uriNew false "http://h/a" := by decide +kernel
  exact hpath ((h.exact _ (.inr rfl) _ (.inl rfl) false).mp hequal)

end TelepathyFacebook
