import VertexApi.Common.Base64url
import VertexApi.Common.ErrorCodes
import VertexApi.Common.JsString

/-!
# OAuth attempts

One attempt keeps two secrets in a signed cookie between the redirect to the provider and
the redirect back: the state, which the callback must repeat, and the verifier, of which
the provider has only seen the hash. One function serves the start and the callback and
branches on the query. Cookie signing, hashing and random bytes are parameters.
-/

namespace VertexApi.Auth

/-- The supported providers. -/
inductive OAuthProvider where
  | google
  | github
  deriving DecidableEq, Repr

/-- The name of a provider in routes and cookie names. -/
def OAuthProvider.text : OAuthProvider → String
  | .google => "google"
  | .github => "github"

/-- What `unsignCookie` answers. -/
structure UnsignResult where
  valid : Bool
  value : Option String
  deriving DecidableEq, Repr

/-- The cookie signer: it appends a signature, and accepts what it signed and nothing else. -/
structure CookieSigner where
  sign : String → String
  unsign : String → UnsignResult
  sign_ne_empty : ∀ value, sign value ≠ ""
  unsign_sign : ∀ value, unsign (sign value) = ⟨true, some value⟩
  eq_sign_of_valid : ∀ {signed}, (unsign signed).valid = true → ∃ value, signed = sign value

/-- What stands before the last dot of a text. -/
def beforeLastDot (text : String) : String :=
  String.ofList ((text.toList.reverse.dropWhile (· != '.')).drop 1).reverse

/-- A dotless text after a dot is cut off. -/
theorem beforeLastDot_append {value mac : String} (hmac : '.' ∉ mac.toList) :
    beforeLastDot (value ++ "." ++ mac) = value := by
  have hdot : ".".toList = ['.'] := by decide
  have hpass : ∀ c ∈ mac.toList.reverse, (c != '.') = true := by
    intro c hc
    rw [bne_iff_ne]
    rintro rfl
    exact hmac (List.mem_reverse.mp hc)
  rw [beforeLastDot]
  simp only [String.toList_append, hdot, List.reverse_append, List.reverse_singleton,
    List.dropWhile_append_of_pos hpass]
  rw [List.singleton_append, List.dropWhile_cons_of_neg (by decide), List.drop_succ_cons,
    List.drop_zero, List.reverse_reverse, String.ofList_toList]

/-- The signer that appends a dotless code of the value. -/
def macSigner (mac : String → String) (hmac : ∀ value, '.' ∉ (mac value).toList) : CookieSigner
    where
  sign value := value ++ "." ++ mac value
  unsign signed :=
    let value := beforeLastDot signed
    if signed = value ++ "." ++ mac value then ⟨true, some value⟩ else ⟨false, none⟩
  sign_ne_empty value he := by
    have hlist := congrArg (fun text => '.' ∈ text.toList) he
    simp at hlist
  unsign_sign value := by simp only [beforeLastDot_append (hmac value), if_true]
  eq_sign_of_valid := by
    intro signed hvalid
    by_cases he : signed = beforeLastDot signed ++ "." ++ mac (beforeLastDot signed)
    · exact ⟨beforeLastDot signed, he⟩
    · simp only [if_neg he, Bool.false_eq_true] at hvalid

/-- It accepts no text without a dot. -/
theorem macSigner_unsign_of_dotless {mac : String → String}
    (hmac : ∀ value, '.' ∉ (mac value).toList) {signed : String} (h : '.' ∉ signed.toList) :
    (macSigner mac hmac).unsign signed = ⟨false, none⟩ := by
  refine if_neg fun he => h ?_
  have hdot : ".".toList = ['.'] := by decide
  have hlist := congrArg String.toList he
  simp only [String.toList_append, hdot] at hlist
  rw [hlist]
  exact List.mem_append_left _ (List.mem_append_right _ (List.mem_singleton.mpr rfl))

/-- What the OAuth routes take from their surroundings. -/
structure OAuthConfig where
  signer : CookieSigner
  /-- The digest of a text. -/
  sha256 : String → List UInt8
  /-- `process.env.NODE_ENV`. -/
  nodeEnv : Option String

/-- The low bytes of the characters of a text. -/
def lowBytes (text : String) : List UInt8 := text.toList.map fun c => UInt8.ofNat c.toNat

/-- A configuration that signs and hashes a text by its bytes. -/
def bytesConfig : OAuthConfig where
  signer := macSigner (fun value => base64url (lowBytes value)) fun _ => dot_notMem_base64url _
  sha256 := lowBytes
  nodeEnv := none

/-- How long an attempt is remembered. -/
def oauthAttemptMaxAgeSeconds : Nat := 10 * 60

/-- The two secrets of an authorization request. -/
structure OAuthAttempt where
  state : String
  codeVerifier : String
  deriving DecidableEq, Repr

/-- What the guards hand to passport. -/
structure OAuthAuthenticateOptions where
  state : Option String
  codeChallenge : Option String
  codeVerifier : Option String
  deriving DecidableEq, Repr

/-- The name of the provider's state cookie. -/
def cookieName (provider : OAuthProvider) : String := "oauth_state_" ++ provider.text

/-- The callback route, to which the browser sends the state cookie. -/
def cookiePath (provider : OAuthProvider) : String := "/auth/" ++ provider.text ++ "/callback"

/-- The two providers have two cookies. -/
theorem cookieName_inj {provider other : OAuthProvider} :
    cookieName provider = cookieName other ↔ provider = other := by
  cases provider <;> cases other <;> decide

/-- The attributes of a state cookie. -/
structure CookieOptions where
  httpOnly : Bool
  secure : Bool
  sameSite : String
  path : String
  /-- In seconds. -/
  maxAge : Nat
  deriving DecidableEq, Repr

/-- What a response does to the cookies of the browser. -/
inductive CookieChange where
  | set (name value : String) (options : CookieOptions)
  | clear (name path : String)
  deriving DecidableEq, Repr

/-- A query parameter: absent, given once, given several times, or any other value, of
which only the truth value matters. -/
inductive QueryValue where
  | missing
  | text (value : String)
  | texts (values : List String)
  | other (truthy : Bool)
  deriving DecidableEq, Repr

/-- Whether a condition takes the value for true. -/
def QueryValue.truthy : QueryValue → Bool
  | .missing => false
  | .text value => value != ""
  | .texts _ => true
  | .other truthy => truthy

/-- The parameters that the routes read. -/
structure OAuthQuery where
  error : QueryValue
  code : QueryValue
  state : QueryValue
  deriving DecidableEq, Repr

/-- A query without parameters. -/
def OAuthQuery.empty : OAuthQuery := ⟨.missing, .missing, .missing⟩

/-- A request of an OAuth route, with the cookies that came with it. -/
structure OAuthRequest where
  query : Option OAuthQuery
  cookies : String → Option String

/-- A fresh attempt, from two draws of 32 random bytes. -/
def createOAuthAttempt (stateBytes verifierBytes : Vector UInt8 32) : OAuthAttempt where
  state := base64url stateBytes.toList
  codeVerifier := base64url verifierBytes.toList

/-- The S256 challenge of a verifier. -/
def codeChallengeFor (config : OAuthConfig) (codeVerifier : String) : String :=
  base64url (config.sha256 codeVerifier)

/-- The comparison of the remembered state with the one that came back, on their bytes. -/
def statesMatch (expected : String) : QueryValue → Bool
  | .text provided =>
    let expectedBytes := expected.toUTF8
    let providedBytes := provided.toUTF8
    expectedBytes.size == providedBytes.size && decide (expectedBytes.data = providedBytes.data)
  | _ => false

/-- The exception of every callback that fails the check. -/
def oAuthStateMismatchException : HttpException :=
  forbiddenException "The sign-in attempt could not be verified. Please try again."
    .oAuthStateMismatch

/-- The value under the signature of an attempt's cookie. -/
def OAuthAttempt.cookieValue (attempt : OAuthAttempt) : String :=
  attempt.state ++ "." ++ attempt.codeVerifier

/-- The attempt goes into a signed cookie on the redirect to the provider. -/
def rememberOAuthAttempt (config : OAuthConfig) (provider : OAuthProvider)
    (attempt : OAuthAttempt) : List CookieChange :=
  [.set (cookieName provider) (config.signer.sign attempt.cookieValue) {
    httpOnly := true
    secure := config.nodeEnv == some "production"
    sameSite := "lax"
    path := cookiePath provider
    maxAge := oauthAttemptMaxAgeSeconds }]

/-- The attempt in a signed cookie value, if there is one. -/
def readOAuthAttempt (signer : CookieSigner) : Option String → Option OAuthAttempt
  | none => none
  | some signedValue =>
    if signedValue = "" then none
    else
      match signer.unsign signedValue with
      | ⟨true, some value⟩ =>
        if value = "" then none
        else
          match JsString.split value '.' with
          | [state, codeVerifier] =>
            if state = "" ∨ codeVerifier = "" then none else some ⟨state, codeVerifier⟩
          | _ => none
      | _ => none

/-- The callback reads the attempt back, and clears the cookie whatever it holds. -/
def takeOAuthAttempt (config : OAuthConfig) (request : OAuthRequest) (provider : OAuthProvider) :
    Option OAuthAttempt × List CookieChange :=
  (readOAuthAttempt config.signer (request.cookies (cookieName provider)),
    [.clear (cookieName provider) (cookiePath provider)])

/-- What the guard passes to passport, or throws, and what the response does to the cookies:
an error is passed on, a code is a callback, anything else starts an attempt. -/
def oauthAuthenticateOptions (config : OAuthConfig) (provider : OAuthProvider)
    (request : OAuthRequest) (stateBytes verifierBytes : Vector UInt8 32) :
    Except HttpException OAuthAuthenticateOptions × List CookieChange :=
  let query := request.query.getD .empty
  if query.error.truthy then (.ok ⟨none, none, none⟩, [])
  else if query.code.truthy then
    let (attempt, changes) := takeOAuthAttempt config request provider
    match attempt with
    | none => (.error oAuthStateMismatchException, changes)
    | some attempt =>
      if statesMatch attempt.state query.state then
        (.ok ⟨none, none, some attempt.codeVerifier⟩, changes)
      else (.error oAuthStateMismatchException, changes)
  else
    let attempt := createOAuthAttempt stateBytes verifierBytes
    (.ok ⟨some attempt.state, some (codeChallengeFor config attempt.codeVerifier), none⟩,
      rememberOAuthAttempt config provider attempt)

/-- States match when the parameter is the remembered text. -/
theorem statesMatch_iff {expected : String} {provided : QueryValue} :
    statesMatch expected provided = true ↔ provided = .text expected := by
  cases provided with
  | text provided =>
    simp only [statesMatch, Bool.and_eq_true, beq_iff_eq, decide_eq_true_eq,
      QueryValue.text.injEq]
    constructor
    · rintro ⟨-, hbytes⟩
      exact (String.toByteArray_inj.mp (ByteArray.ext hbytes)).symm
    · rintro rfl
      exact ⟨rfl, rfl⟩
  | missing | texts | other => simp only [statesMatch, Bool.false_eq_true, reduceCtorEq]

/-- A draw is not encoded as the empty text. -/
theorem base64url_draw_ne_empty (bytes : Vector UInt8 32) : base64url bytes.toList ≠ "" := by
  have hbytes : bytes.toList ≠ [] := by
    intro hnil
    have hlength := bytes.length_toList
    rw [hnil] at hlength
    cases hlength
  exact base64url_ne_empty hbytes

/-- The cookie of a fresh attempt gives the attempt back. -/
theorem readOAuthAttempt_sign (signer : CookieSigner)
    (stateBytes verifierBytes : Vector UInt8 32) :
    readOAuthAttempt signer
        (some (signer.sign (createOAuthAttempt stateBytes verifierBytes).cookieValue)) =
      some (createOAuthAttempt stateBytes verifierBytes) := by
  have hsplit : JsString.split (createOAuthAttempt stateBytes verifierBytes).cookieValue '.' =
      [base64url stateBytes.toList, base64url verifierBytes.toList] := by
    have hdot : String.singleton '.' = "." := by decide
    rw [← JsString.split_append (dot_notMem_base64url _) (dot_notMem_base64url _), hdot]
    rfl
  have hvalue : (createOAuthAttempt stateBytes verifierBytes).cookieValue ≠ "" := by
    intro he
    rw [he] at hsplit
    have hlength : (JsString.split "" '.').length = 2 := congrArg List.length hsplit
    exact absurd hlength (by decide)
  simp only [readOAuthAttempt, if_neg (signer.sign_ne_empty _), signer.unsign_sign,
    if_neg hvalue, hsplit, base64url_draw_ne_empty, or_self, if_false]
  rfl

/-- An attempt is read from a valid signature only, and is the pair under it. -/
theorem exists_of_readOAuthAttempt {signer : CookieSigner} {signed : Option String}
    {attempt : OAuthAttempt} (h : readOAuthAttempt signer signed = some attempt) :
    ∃ value, signed = some (signer.sign value) ∧
      JsString.split value '.' = [attempt.state, attempt.codeVerifier] := by
  cases signed with
  | none => cases h
  | some signedValue =>
    have hunsign := signer.unsign_sign
    cases hresult : signer.unsign signedValue with
    | mk valid unsigned =>
      cases valid with
      | false => simp only [readOAuthAttempt, hresult, ite_self, reduceCtorEq] at h
      | true =>
        obtain ⟨value, rfl⟩ := signer.eq_sign_of_valid (congrArg UnsignResult.valid hresult)
        simp only [readOAuthAttempt, if_neg (signer.sign_ne_empty value), hunsign] at h
        refine ⟨value, rfl, ?_⟩
        split at h
        · cases h
        · split at h
          · next hsplit =>
            simp only [Option.ite_none_left_eq_some, Option.some.injEq] at h
            rw [hsplit, ← h.2]
          · cases h

section Branches

variable (config : OAuthConfig) (provider : OAuthProvider) (request : OAuthRequest)
  {query : OAuthQuery} (stateBytes verifierBytes : Vector UInt8 32)

/-- A failure that the provider reports changes nothing. -/
theorem oauthAuthenticateOptions_error (hquery : request.query.getD .empty = query)
    (herror : query.error.truthy = true) :
    oauthAuthenticateOptions config provider request stateBytes verifierBytes =
      (.ok ⟨none, none, none⟩, []) := by
  rw [oauthAuthenticateOptions, hquery, if_pos herror]

/-- A visit with neither error nor code starts an attempt. -/
theorem oauthAuthenticateOptions_start (hquery : request.query.getD .empty = query)
    (herror : query.error.truthy = false) (hcode : query.code.truthy = false) :
    oauthAuthenticateOptions config provider request stateBytes verifierBytes =
      (.ok ⟨some (createOAuthAttempt stateBytes verifierBytes).state,
        some (codeChallengeFor config (createOAuthAttempt stateBytes verifierBytes).codeVerifier),
        none⟩,
      rememberOAuthAttempt config provider (createOAuthAttempt stateBytes verifierBytes)) := by
  simp only [oauthAuthenticateOptions, hquery, herror, hcode, Bool.false_eq_true, if_false]

/-- A visit with a code is answered from its cookie and clears it. -/
theorem oauthAuthenticateOptions_code (hquery : request.query.getD .empty = query)
    (herror : query.error.truthy = false) (hcode : query.code.truthy = true) :
    oauthAuthenticateOptions config provider request stateBytes verifierBytes =
      (match readOAuthAttempt config.signer (request.cookies (cookieName provider)) with
        | some attempt =>
          if statesMatch attempt.state query.state then
            .ok ⟨none, none, some attempt.codeVerifier⟩
          else .error oAuthStateMismatchException
        | none => .error oAuthStateMismatchException,
      [.clear (cookieName provider) (cookiePath provider)]) := by
  simp only [oauthAuthenticateOptions, hquery, herror, hcode, Bool.false_eq_true, if_false,
    if_true, takeOAuthAttempt]
  cases readOAuthAttempt config.signer (request.cookies (cookieName provider)) with
  | none => rfl
  | some attempt =>
    cases hmatch : statesMatch attempt.state query.state with
    | true => simp only [hmatch, if_true]
    | false => simp only [hmatch, Bool.false_eq_true, if_false]

end Branches

end VertexApi.Auth
