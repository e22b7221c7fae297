import Palworld.Auth.Session
import Mathlib.Tactic.Linarith
import Mathlib.Tactic.NormNum

/-!
# Tokens that are made, and tokens that are sent

A token that was made for a user is accepted until it expires. One that is accepted,
whoever made it, has the right signature and a payload that names the user.
-/

open Lib

namespace Palworld.Auth

/-- `int` of a float. -/
def truncate (x : ℚ) : Int := if 0 ≤ x then x.floor else x.ceil

structure TokenLibraries extends Libraries where
  /-- `json.dumps`. `none` is the `ValueError` of an integer of too many digits. -/
  jsonDumps : List (Text × JsonValue) → Option Text

def sessionPayload (username : Text) (expiresAt : Int) (nonce : Text) : List (Text × JsonValue) :=
  [(lit "sub", .str username), (lit "exp", .number (.finite expiresAt)), (lit "nonce", .str nonce)]

/-- `json.loads` reads back what `json.dumps` wrote for a payload. -/
def TokenLibraries.ReadsBack (lib : TokenLibraries) : Prop :=
  ∀ username expiresAt nonce json, lib.jsonDumps (sessionPayload username expiresAt nonce) = some json →
    lib.jsonLoads json = .ok (.object (sessionPayload username expiresAt nonce))

def sessionExpiry (now : ℚ) (expiresInSeconds : Int) : Int := truncate now + expiresInSeconds

def generateSessionToken (lib : TokenLibraries) (now : ℚ) (nonce username secretKey : Text) (expiresInSeconds : Int) :
    Option Text :=
  (lib.jsonDumps (sessionPayload username (sessionExpiry now expiresInSeconds) nonce)).map fun json =>
    let payloadB64 := rstripPadding (urlsafeB64encode (utf8Encode json))
    payloadB64 ++ '.' :: signatureOf lib.toLibraries secretKey payloadB64

/-! ## Segments -/

variable {lib : Libraries} {now : ℚ} {token secretKey payloadB64 username json : Text}

theorem rstripPadding_append {body : Text} {k : Nat} (h : '=' ∉ body) :
    rstripPadding (body ++ List.replicate k '=') = body := by
  unfold rstripPadding
  rw [List.reverse_append, List.reverse_replicate, List.dropWhile_append_of_pos (by simp)]
  rw [List.dropWhile_eq_self_iff.mpr, List.reverse_reverse]
  intro hlen
  simp only [decide_eq_true_eq]
  intro heq
  exact h (List.mem_reverse.mp (heq ▸ List.getElem_mem hlen))

/-- The unpadded text of the encoder has no dot, and its padding is restored. -/
theorem rstripPadding_urlsafeB64encode (bs : List UInt8) :
    '.' ∉ rstripPadding (urlsafeB64encode bs) ∧
      rstripPadding (urlsafeB64encode bs) ++
        List.replicate ((4 - (rstripPadding (urlsafeB64encode bs)).length % 4) % 4) '=' = urlsafeB64encode bs := by
  obtain ⟨body, k, hencode, hpad, hdot, rfl⟩ := urlsafeB64encode_padded bs
  rw [hencode, rstripPadding_append hpad]
  exact ⟨hdot, rfl⟩

theorem dot_notMem_signatureOf : '.' ∉ signatureOf lib secretKey payloadB64 :=
  (rstripPadding_urlsafeB64encode _).1

theorem payloadJson_encoded (json : Text) :
    payloadJson (rstripPadding (urlsafeB64encode (utf8Encode json))) = some json := by
  unfold payloadJson
  dsimp only
  rw [(rstripPadding_urlsafeB64encode _).2, urlsafeB64decode_urlsafeB64encode, Option.bind_some, utf8Decode_utf8Encode]

theorem splitOn_dot {a b : Text} (ha : '.' ∉ a) (hb : '.' ∉ b) : (a ++ '.' :: b).splitOn '.' = [a, b] := by
  rw [List.splitOn_append_cons_self, List.splitOn_eq_singleton ha, List.splitOn_eq_singleton hb]
  rfl

theorem eq_of_splitOn {a b : Text} (h : token.splitOn '.' = [a, b]) : token = a ++ '.' :: b := by
  have hjoin := @List.intercalate_splitOn _ token _ _ '.'
  rw [h] at hjoin
  simpa [List.intercalate] using hjoin.symm

/-! ## Verification -/

/-- What `verify_session_token` checks before it returns a user. -/
structure Accepts (lib : Libraries) (now : ℚ) (token secretKey payloadB64 username : Text) : Prop where
  signed : token = payloadB64 ++ '.' :: signatureOf lib secretKey payloadB64
  decoded : ∃ json fields exp, payloadJson payloadB64 = some json ∧ lib.jsonLoads json = .ok (.object fields) ∧
    lookup (lit "sub") fields = some (.str username) ∧ lookup (lit "exp") fields = some (.number exp) ∧
      exp.before now = false

theorem payloadUser_eq_some_iff {fields : List (Text × JsonValue)} :
    payloadUser now fields = some username ↔
      ∃ exp, lookup (lit "exp") fields = some (.number exp) ∧ exp.before now = false ∧
        lookup (lit "sub") fields = some (.str username) ∧ username ≠ [] := by
  unfold payloadUser
  constructor
  · intro h
    split at h
    · rename_i exp hexp
      split at h
      · cases h
      · rename_i hfresh
        split at h
        · rename_i user hsub
          split at h
          · cases h
          · rename_i hne
            obtain rfl := Option.some.inj h
            exact ⟨exp, hexp, by simpa using hfresh, hsub, hne⟩
        · cases h
    · cases h
  · rintro ⟨exp, hexp, hfresh, hsub, hne⟩
    simp [hexp, hfresh, hsub, hne]

theorem verifySessionToken_sound (h : verifySessionToken lib now token secretKey = .ok (some username)) :
    ∃ payloadB64, Accepts lib now token secretKey payloadB64 username := by
  unfold verifySessionToken at h
  split at h
  · rename_i payloadB64 sigB64 hsplit
    refine ⟨payloadB64, ?_⟩
    split at h
    · cases h
    · cases h
    · rename_i hsig
      have hequal : sigB64 = signatureOf lib secretKey payloadB64 := by
        unfold compareDigest at hsig
        split at hsig
        · exact of_decide_eq_true (Except.ok.inj hsig)
        · cases hsig
      split at h
      · cases h
      · rename_i json hjson
        split at h
        · cases h
        · cases h
        · cases h
        · rename_i fields hload
          obtain ⟨exp, hexp, hfresh, hsub, -⟩ := payloadUser_eq_some_iff.mp (Except.ok.inj h)
          exact ⟨hequal ▸ eq_of_splitOn hsplit, json, fields, exp, hjson, hload, hsub, hexp, hfresh⟩
  · cases h

/-- A signed payload is decoded, and what it says decides. -/
theorem verifySessionToken_signed {fields : List (Text × JsonValue)} (hdot : '.' ∉ payloadB64)
    (hjson : payloadJson payloadB64 = some json) (hload : lib.jsonLoads json = .ok (.object fields)) :
    verifySessionToken lib now (payloadB64 ++ '.' :: signatureOf lib secretKey payloadB64) secretKey =
      .ok (payloadUser now fields) := by
  have hcompare : compareDigest (signatureOf lib secretKey payloadB64) (signatureOf lib secretKey payloadB64) =
      .ok true := by
    unfold compareDigest
    simp [isAscii_signatureOf]
  unfold verifySessionToken
  rw [splitOn_dot hdot dot_notMem_signatureOf]
  simp only [hcompare, hjson, hload]

theorem payloadUser_sessionPayload {expiresAt : Int} {nonce : Text} (h : username ≠ []) :
    payloadUser now (sessionPayload username expiresAt nonce) = if now ≤ expiresAt then some username else none := by
  have hexp : lookup (lit "exp") (sessionPayload username expiresAt nonce) = some (.number (.finite expiresAt)) := rfl
  have hsub : lookup (lit "sub") (sessionPayload username expiresAt nonce) = some (.str username) := rfl
  unfold payloadUser
  simp only [hexp, hsub, JsonNumber.before, h, if_false, decide_eq_true_eq]
  split_ifs <;> first | rfl | (exfalso; linarith)

theorem verifySessionToken_generated {lib : TokenLibraries} (hlib : lib.ReadsBack) {issued : ℚ} {nonce : Text}
    {expiresInSeconds : Int} (husername : username ≠ [])
    (h : generateSessionToken lib issued nonce username secretKey expiresInSeconds = some token) :
    verifySessionToken lib.toLibraries now token secretKey =
      .ok (if now ≤ sessionExpiry issued expiresInSeconds then some username else none) := by
  unfold generateSessionToken at h
  obtain ⟨json, hdump, rfl⟩ := Option.map_eq_some_iff.mp h
  rw [verifySessionToken_signed (rstripPadding_urlsafeB64encode _).1 (payloadJson_encoded json) (hlib _ _ _ _ hdump),
    payloadUser_sessionPayload husername]

/-- **Session tokens are sound and complete.** A token that was made for a user is accepted as that user's exactly
until it expires; and whatever token is accepted carries the right signature over a payload that names the user and
has not expired. -/
theorem session_token_sound_complete (lib : TokenLibraries) (hlib : lib.ReadsBack) (secretKey : Text) :
    (∀ issued nonce username expiresInSeconds token, username ≠ [] →
      generateSessionToken lib issued nonce username secretKey expiresInSeconds = some token →
        ∀ now, verifySessionToken lib.toLibraries now token secretKey = .ok (some username) ↔
          now ≤ sessionExpiry issued expiresInSeconds) ∧
      ∀ now token username, verifySessionToken lib.toLibraries now token secretKey = .ok (some username) →
        ∃ payloadB64, Accepts lib.toLibraries now token secretKey payloadB64 username := by
  constructor
  · intro issued nonce username expiresInSeconds token husername htoken now
    rw [verifySessionToken_generated hlib husername htoken]
    split <;> simp [*]
  · exact fun now token username h => verifySessionToken_sound h

/-! ## One token -/

def rootPayload : Text := lit "\x7b\"sub\":\"root\",\"exp\":1700003600,\"nonce\":\"0123456789abcdef\"\x7d"

def rootPayloadB64 : Text :=
  lit "eyJzdWIiOiJyb290IiwiZXhwIjoxNzAwMDAzNjAwLCJub25jZSI6IjAxMjM0NTY3ODlhYmNkZWYifQ"

/-- The libraries on one payload under the key `k`. -/
def rootLibraries : TokenLibraries where
  hmacSha256 key message :=
    if key = utf8Encode (lit "k") ∧ message = utf8Encode rootPayloadB64 then
      [109, 206, 94, 135, 221, 208, 92, 104, 0, 103, 246, 86, 158, 168, 240, 216, 145, 130, 209, 137, 61, 193, 112, 153,
        255, 23, 154, 156, 67, 94, 44, 185]
    else []
  jsonLoads json :=
    if json = rootPayload then .ok (.object (sessionPayload (lit "root") 1700003600 (lit "0123456789abcdef")))
    else .error .valueError
  jsonDumps
    | [(_, .str username), (_, .number (.finite expiresAt)), (_, .str nonce)] =>
      if username = lit "root" ∧ expiresAt = 1700003600 ∧ nonce = lit "0123456789abcdef" then some rootPayload else none
    | _ => none

theorem rootLibraries_readsBack : rootLibraries.ReadsBack := by
  intro username expiresAt nonce json h
  simp only [rootLibraries, sessionPayload] at h ⊢
  split at h
  · rename_i hroot
    obtain ⟨rfl, hexp, rfl⟩ := hroot
    obtain rfl := Option.some.inj h
    rw [if_pos rfl, hexp]
    norm_num
  · cases h

def rootToken : Text := rootPayloadB64 ++ lit ".bc5eh93QXGgAZ_ZWnqjw2JGC0Yk9wXCZ_xeanENeLLk"

theorem root_token_accepted :
    verifySessionToken rootLibraries.toLibraries 1700003600 rootToken (lit "k") = .ok (some (lit "root")) :=
  have hnow : sessionExpiry 1700000000 3600 = 1700003600 := by decide
  ((session_token_sound_complete rootLibraries rootLibraries_readsBack (lit "k")).1 1700000000 (lit "0123456789abcdef")
    (lit "root") 3600 rootToken (by decide) (by decide +kernel) 1700003600).mpr (by rw [hnow]; norm_num)

end Palworld.Auth
