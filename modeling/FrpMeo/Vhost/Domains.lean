import FrpMeo.Vhost.Router

/-!
# Custom domains and the subdomain host

The server refuses custom domains under its `SubDomainHost` (`validateDomainConfigForServer` of
`pkg/config/v1/validation/proxy.go`), but compares the texts as they were written, while the router
files a route under the lower-cased domain (`pkg/util/vhost/router.go`).
-/

namespace FrpMeo.Vhost

open Lib Lib.Text

/-! ## Texts as bytes -/

def utf8 (s : String) : Bytes := s.toByteArray.data.toList

theorem utf8_injective : Function.Injective utf8 := by
  intro s t h
  exact String.toByteArray_inj.1 (ByteArray.ext (Array.toList_inj.1 h))

/-- `strings.ToLower` works letter by letter on UTF-8; domains are UTF-8. -/
structure TextGo extends Go where
  letters : CaseMap
  toLower_utf8 : ∀ s : String, toLower (utf8 s) = utf8 (Text.toLower letters s)

def TextGo.ofCase (letters : CaseMap) : TextGo where
  toLower b :=
    match String.fromUTF8? ⟨b.toArray⟩ with
    | none => b
    | some s => utf8 (Text.toLower letters s)
  decodeBase64 _ := none
  letters := letters
  toLower_utf8 s := by
    have hbytes : (⟨(utf8 s).toArray⟩ : ByteArray) = s.toByteArray :=
      ByteArray.ext Array.toArray_toList
    have hs : String.fromUTF8? s.toByteArray = some s := by
      unfold String.fromUTF8?
      rw [dif_pos s.isValidUTF8]
      rfl
    rw [hbytes, hs]

/-! ## Validation and the domains of a proxy -/

structure DomainConfig where
  customDomains : List String
  subDomain : String

structure ServerConfig where
  subDomainHost : String

/-- The test for one custom domain: more labels than the host, and the host as its ending. -/
def belongsTo (host domain : String) : Bool :=
  host != "" &&
    decide ((split '.' host.toList).length < (split '.' domain.toList).length) &&
    ("." ++ host).toList.isSuffixOf domain.toList

def validateCustomDomains (host : String) : List String → Except String Unit
  | [] => .ok ()
  | domain :: domains =>
      if belongsTo host domain then
        .error ("custom domain [" ++ domain ++ "] should not belong to subdomain host [" ++ host ++
          "]")
      else validateCustomDomains host domains

def validateSubDomain (host subDomain : String) : Except String Unit :=
  if subDomain = "" then .ok ()
  else if host = "" then
    .error "subdomain is not supported because this feature is not enabled in server"
  else if '.' ∈ subDomain.toList ∨ '*' ∈ subDomain.toList then
    .error "'.' and '*' are not supported in subdomain"
  else .ok ()

def validateDomainConfigForServer (c : DomainConfig) (s : ServerConfig) : Except String Unit :=
  match validateCustomDomains s.subDomainHost c.customDomains with
  | .error err => .error err
  | .ok () => validateSubDomain s.subDomainHost c.subDomain

def subDomains (c : DomainConfig) (s : ServerConfig) : List String :=
  if c.subDomain ≠ "" then [c.subDomain ++ "." ++ s.subDomainHost] else []

def buildDomains (c : DomainConfig) (s : ServerConfig) : List String :=
  c.customDomains.filter (· ≠ "") ++ subDomains c s

/-! ## What is accepted -/

theorem length_split (sep : Char) (s : List Char) : (split sep s).length = s.count sep + 1 := by
  induction s with
  | nil => rfl
  | cons c s ih =>
    unfold split
    by_cases hc : c = sep
    · simp [hc, ih]
    · cases hs : split sep s with
      | nil => simp [hs] at ih
      | cons part parts =>
        rw [hs] at ih
        simpa [hc] using ih

variable {host domain : String} {s : ServerConfig}

/-- The comparison of labels adds nothing: an ending with a dot in front has fewer dots. -/
theorem belongsTo_iff :
    belongsTo host domain = true ↔ host ≠ "" ∧ '.' :: host.toList <:+ domain.toList := by
  have htext : ("." ++ host).toList = '.' :: host.toList := by simp
  unfold belongsTo
  rw [htext]
  simp only [Bool.and_eq_true, bne_iff_ne, ne_eq, decide_eq_true_eq, List.isSuffixOf_iff_suffix]
  constructor
  · rintro ⟨⟨hne, -⟩, hsuf⟩
    exact ⟨hne, hsuf⟩
  · rintro ⟨hne, hsuf⟩
    have hdots := hsuf.sublist.count_le '.'
    rw [List.count_cons_self] at hdots
    refine ⟨⟨hne, ?_⟩, hsuf⟩
    rw [length_split, length_split]
    omega

theorem validateCustomDomains_eq_ok_iff {domains : List String} :
    validateCustomDomains host domains = .ok () ↔ ∀ d ∈ domains, belongsTo host d = false := by
  induction domains with
  | nil => simp [validateCustomDomains]
  | cons d ds ih =>
    unfold validateCustomDomains
    cases hd : belongsTo host d with
    | true => simp [hd]
    | false => simpa [hd] using ih

theorem validateSubDomain_eq_ok {subDomain : String} (h : validateSubDomain host subDomain = .ok ())
    (hsub : subDomain ≠ "") : host ≠ "" := by
  intro hhost
  simp [validateSubDomain, hsub, hhost] at h

theorem of_validate {c : DomainConfig} (h : validateDomainConfigForServer c s = .ok ()) :
    validateCustomDomains s.subDomainHost c.customDomains = .ok () ∧
      validateSubDomain s.subDomainHost c.subDomain = .ok () := by
  unfold validateDomainConfigForServer at h
  split at h
  · cases h
  · next hc => exact ⟨hc, h⟩

/-! ## Keys -/

def TextGo.key (go : TextGo) (domain : String) : Bytes := (go.place (utf8 domain) [] []).domain

theorem TextGo.key_eq (go : TextGo) :
    go.key domain = utf8 (Text.toLower go.letters domain) := go.toLower_utf8 domain

theorem toList_toLower (cm : CaseMap) (s : String) :
    (Text.toLower cm s).toList = s.toList.map cm.lower := by
  simp [Text.toLower]

theorem lower_dot (cm : CaseMap) : cm.lower '.' = '.' := cm.ascii '.' (by decide)

theorem toLower_append (cm : CaseMap) (s t : String) :
    Text.toLower cm (s ++ t) = Text.toLower cm s ++ Text.toLower cm t := by
  apply String.toList_inj.1
  simp [toList_toLower]

theorem toLower_dot (cm : CaseMap) : Text.toLower cm "." = "." := by
  apply String.toList_inj.1
  simp [toList_toLower, lower_dot]

/-- The key is a proper subdomain of the lower-cased host. -/
def TextGo.KeyBelow (go : TextGo) (host domain : String) : Prop :=
  host ≠ "" ∧ ∃ front : String, go.key domain = utf8 (front ++ "." ++ Text.toLower go.letters host)

theorem TextGo.keyBelow_iff (go : TextGo) (host domain : String) :
    go.KeyBelow host domain ↔ host ≠ "" ∧ ∃ tail, tail <:+ domain.toList ∧
      tail.map go.letters.lower = ('.' :: host.toList).map go.letters.lower := by
  refine and_congr_right fun _ => ?_
  constructor
  · rintro ⟨front, hkey⟩
    rw [go.key_eq] at hkey
    have htext := congrArg String.toList (utf8_injective hkey)
    simp only [String.toList_append, toList_toLower] at htext
    refine ⟨domain.toList.drop front.toList.length, List.drop_suffix _ _, ?_⟩
    rw [List.map_drop, htext]
    simp [lower_dot]
  · rintro ⟨tail, ⟨front, hfront⟩, htail⟩
    refine ⟨Text.toLower go.letters (String.ofList front), ?_⟩
    rw [go.key_eq]
    congr 1
    apply String.toList_inj.1
    rw [toList_toLower, ← hfront, List.map_append, htail]
    simp [toList_toLower, lower_dot]

theorem TextGo.keyBelow_subDomains (go : TextGo) {c : DomainConfig}
    (h : validateDomainConfigForServer c s = .ok ()) (hd : domain ∈ subDomains c s) :
    go.KeyBelow s.subDomainHost domain := by
  unfold subDomains at hd
  split_ifs at hd with hsub
  · rw [List.mem_singleton] at hd
    subst hd
    refine ⟨validateSubDomain_eq_ok (of_validate h).2 hsub, Text.toLower go.letters c.subDomain, ?_⟩
    rw [go.key_eq, toLower_append, toLower_append, toLower_dot]
  · cases hd

/-! ## Custom domains against subdomains -/

/-- The key is not under the host, so the domain shares no place with any subdomain. -/
structure Apart (go : TextGo) (s : ServerConfig) (domain : String) : Prop where
  notBelow : ¬ go.KeyBelow s.subDomainHost domain
  noClash : ∀ c, validateDomainConfigForServer c s = .ok () → ∀ other ∈ subDomains c s,
    ∀ location location' httpUser httpUser' : Bytes,
      go.place (utf8 domain) location httpUser ≠ go.place (utf8 other) location' httpUser'

theorem Apart.of_notBelow {go : TextGo} (h : ¬ go.KeyBelow s.subDomainHost domain) :
    Apart go s domain where
  notBelow := h
  noClash := by
    intro c hc other hother location location' httpUser httpUser' hplace
    have hkey : go.key domain = go.key other := by
      have hdomain := congrArg Place.domain hplace
      exact hdomain
    obtain ⟨hhost, front, hfront⟩ := go.keyBelow_subDomains hc hother
    exact h ⟨hhost, front, hkey.trans hfront⟩

def SpelledAlike (cm : CaseMap) (host domain : String) : Prop :=
  ∀ tail, tail <:+ domain.toList → tail.map cm.lower = ('.' :: host.toList).map cm.lower →
    tail = '.' :: host.toList

/-- Accepted custom domains are apart from the subdomains exactly when there is no host, or they do
not spell it in another case. -/
theorem customDomains_apart_iff (go : TextGo) (s : ServerConfig) (c : DomainConfig)
    (h : validateDomainConfigForServer c s = .ok ()) : (∀ d ∈ c.customDomains, Apart go s d) ↔
      s.subDomainHost = "" ∨
        ∀ d ∈ c.customDomains, SpelledAlike go.letters s.subDomainHost d := by
  have haccepted := validateCustomDomains_eq_ok_iff.1 (of_validate h).1
  constructor
  · intro hapart
    by_cases hhost : s.subDomainHost = ""
    · exact .inl hhost
    · right
      intro d hd tail htail hlower
      exact absurd ((go.keyBelow_iff _ _).2 ⟨hhost, tail, htail, hlower⟩) (hapart d hd).notBelow
  · intro hcond d hd
    apply Apart.of_notBelow
    intro hbelow
    obtain ⟨hhost, tail, htail, hlower⟩ := (go.keyBelow_iff _ _).1 hbelow
    rcases hcond with hempty | hspelled
    · exact hhost hempty
    · -- the ending is the host itself, which the validation refuses
      rw [hspelled d hd tail htail hlower] at htail
      have hbelongs := belongsTo_iff.2 ⟨hhost, htail⟩
      rw [haccepted d hd] at hbelongs
      cases hbelongs

def frpsCom : ServerConfig := ⟨"frps.com"⟩

theorem customDomains_apart_iff_stranger :
    (∀ d ∈ ["www.example.org"], Apart (TextGo.ofCase asciiCase) frpsCom d) ↔
      frpsCom.subDomainHost = "" ∨
        ∀ d ∈ ["www.example.org"], SpelledAlike asciiCase frpsCom.subDomainHost d :=
  customDomains_apart_iff (TextGo.ofCase asciiCase) frpsCom ⟨["www.example.org"], ""⟩
    (by decide +kernel)

/-- In capitals a custom domain is accepted, and has the place of the subdomain `www`. -/
theorem capitals_take_subdomain :
    validateDomainConfigForServer ⟨["www.FRPS.com"], ""⟩ frpsCom = .ok () ∧
      validateDomainConfigForServer ⟨[], "www"⟩ frpsCom = .ok () ∧
      ¬ Apart (TextGo.ofCase asciiCase) frpsCom "www.FRPS.com" := by
  refine ⟨by decide +kernel, by decide +kernel, fun hapart => hapart.notBelow ?_⟩
  rw [TextGo.keyBelow_iff]
  exact ⟨by decide, ".FRPS.com".toList, by decide +kernel, by decide +kernel⟩

end FrpMeo.Vhost
