import RagForge.JsonText.Decimal
import RagForge.JsonText.Sorted

/-
Signed identity tickets, as `auth.py` issues and verifies them.

A ticket is the encoded JSON of its claims and a keyed hash of that text.  The claims are the fields
of an identity, the audience, the purpose and the lifetime, and whatever extra claims the issuer
adds under names that are not taken.
-/

namespace RagForge.Auth

open JsonText (Doc Numerals Object Style print parse sortKeys)
open Py (Dict ok_of_bind ok_of_ite)

/-- An `AuthError`, or an exception of another kind. -/
inductive Err
  | auth (message : String) (code : String := "internal_auth_invalid")
  | other (message : String)
  deriving DecidableEq

/-- Numbers of JSON documents, with the integers among them. -/
structure Numbers (ν : Type) extends Numerals ν where
  ofInt : Int → ν
  toInt : ν → Option Int
  toInt_ofInt : ∀ n, toInt (ofInt n) = some n
  isZero : ν → Bool

/-- What the tickets take from Python: UTF-8, URL-safe Base64, HMAC and SHA-256 over the byte
strings `β`, and `str` of a JSON value. -/
structure Primitives (β ν : Type) where
  utf8 : List Char → β
  ofUtf8 : β → Option (List Char)
  ofUtf8_utf8 : ∀ t, ofUtf8 (utf8 t) = some t
  size : β → Nat
  base64 : β → List Char
  ofBase64 : List Char → Option β
  ofBase64_base64 : ∀ b, ofBase64 (base64 b) = some b
  base64_length : ∀ b, (base64 b).length % 4 = 0
  base64_shape : ∀ b, ∃ body pad, base64 b = body ++ List.replicate pad '=' ∧ pad < 4 ∧
    ∀ c ∈ body, c ≠ '=' ∧ c ≠ '.' ∧ c.toNat < 0x80
  hmac : β → β → β
  sha256 : β → String
  str : Doc ν → String
  str_str : ∀ s, str (.str s) = s

variable {β ν : Type}

/-! ## Identities -/

inductive Role
  | admin
  | user
  | service
  deriving DecidableEq

def Role.text : Role → String
  | .admin => "admin"
  | .user => "user"
  | .service => "service"

def Role.ofText (s : String) : Option Role :=
  if s = "admin" then some .admin
  else if s = "user" then some .user
  else if s = "service" then some .service
  else none

@[simp] theorem Role.ofText_text (r : Role) : Role.ofText r.text = some r := by
  cases r <;> rfl

/-- `AuthIdentity`, with what `__post_init__` checks. -/
structure Identity where
  tenantId : String
  userId : String
  role : Role
  email : Option String := none
  adminId : Option String := none
  sessionId : Option String := none
  tenant_ne : tenantId ≠ ""
  user_ne : userId ≠ ""
  deriving DecidableEq

def optionalField (key : String) (value : Option String) : List (String × Doc ν) :=
  match value with
  | some s => [(key, .str s)]
  | none => []

/-- `to_dict`: fields that are `None` are left out. -/
def Identity.toDict (i : Identity) : List (String × Doc ν) :=
  [("tenant_id", .str i.tenantId), ("user_id", .str i.userId), ("role", .str i.role.text)] ++
    (optionalField "email" i.email ++
      (optionalField "admin_id" i.adminId ++ optionalField "session_id" i.sessionId))

/-- `bool(value)` of a value that a dictionary may lack. -/
def truthy (M : Numbers ν) : Option (Doc ν) → Bool
  | none | some .null => false
  | some (.bool b) => b
  | some (.num n) => !M.isZero n
  | some (.str s) => s != ""
  | some (.arr xs) => !xs.isEmpty
  | some (.obj fields) => !fields.isEmpty

section Mapping

variable (M : Numbers ν) (P : Primitives β ν)

/-- `str(value.get(key) or "")`. -/
def requiredText (value : Dict String (Doc ν)) (key : String) : String :=
  if truthy M (value.get? key) then ((value.get? key).map P.str).getD "" else ""

/-- `str(value[key]) if value.get(key) else None`. -/
def optionalText (value : Dict String (Doc ν)) (key : String) : Option String :=
  if truthy M (value.get? key) then (value.get? key).map P.str else none

def fromMapping (value : Dict String (Doc ν)) : Except Err Identity :=
  if h : requiredText M P value "tenant_id" ≠ "" ∧ requiredText M P value "user_id" ≠ "" then
    match Role.ofText (requiredText M P value "role") with
    | some role =>
      .ok {
        tenantId := requiredText M P value "tenant_id"
        userId := requiredText M P value "user_id"
        role := role
        email := optionalText M P value "email"
        adminId := optionalText M P value "admin_id"
        sessionId := optionalText M P value "session_id"
        tenant_ne := h.1
        user_ne := h.2 }
    | none => .error (.auth ("unsupported role: " ++ requiredText M P value "role"))
  else .error (.auth "tenant_id and user_id are required")

end Mapping

/-! ## Encodings -/

section Encoding

variable (P : Primitives β ν)

/-- `_b64encode`: the padding is left out. -/
def b64encode (value : β) : List Char := (P.base64 value).rdropWhile (· = '=')

/-- `_b64decode`: the padding is put back. -/
def b64decode (value : List Char) : Option β :=
  P.ofBase64 (value ++ List.replicate ((4 - value.length % 4) % 4) '=')

def secretBytes (secret : String) : Except Err β :=
  if P.size (P.utf8 secret.toList) < 32 then
    .error (.auth "authentication secret must contain at least 32 bytes")
  else .ok (P.utf8 secret.toList)

def asciiBytes (text : List Char) : Except Err β :=
  if text.all (·.toNat < 0x80) then .ok (P.utf8 text) else .error (.other "UnicodeEncodeError")

theorem base64_body (b : β) : ∃ pad, P.base64 b = b64encode P b ++ List.replicate pad '=' ∧
      pad = (4 - (b64encode P b).length % 4) % 4 ∧
      ∀ c ∈ b64encode P b, c ≠ '.' ∧ c.toNat < 0x80 := by
  obtain ⟨body, pad, hshape, hpad, hbody⟩ := P.base64_shape b
  have hstrip : b64encode P b = body := by
    unfold b64encode
    rw [hshape, List.rdropWhile, List.reverse_append, List.reverse_replicate,
      List.dropWhile_append_of_pos (by
        intro c hc
        rw [List.eq_of_mem_replicate hc]
        decide)]
    have hhead : body.reverse.dropWhile (fun c => decide (c = '=')) = body.reverse := by
      cases hrev : body.reverse with
      | nil => rfl
      | cons c cs =>
        have hc : c ∈ body := List.mem_reverse.mp (by rw [hrev]; exact List.mem_cons_self)
        exact List.dropWhile_cons_of_neg (by simpa using (hbody c hc).1)
    rw [hhead, List.reverse_reverse]
  have hlen := P.base64_length b
  rw [hshape, List.length_append, List.length_replicate] at hlen
  rw [hstrip]
  exact ⟨pad, hshape, by omega, fun c hc => (hbody c hc).2⟩

theorem b64decode_b64encode (b : β) : b64decode P (b64encode P b) = some b := by
  obtain ⟨pad, hshape, hpad, _⟩ := base64_body P b
  unfold b64decode
  rw [← hpad, ← hshape, P.ofBase64_base64]

theorem asciiBytes_b64encode (b : β) :
    asciiBytes P (b64encode P b) = .ok (P.utf8 (b64encode P b)) := by
  obtain ⟨_, _, _, hchars⟩ := base64_body P b
  unfold asciiBytes
  rw [if_pos (List.all_eq_true.mpr fun c hc => by simpa using (hchars c hc).2)]

end Encoding

/-! ## Tickets -/

/-- `json.dumps(.., sort_keys=True, separators=(",", ":"))`. -/
def canonical (N : Numerals ν) (doc : Doc ν) : List Char := print N ⟨true, false⟩ (sortKeys doc)

/-- What `sign_auth_ticket` is given: the lifetime, the time of issue and the id of the ticket. -/
structure Grant where
  secret : String
  audience : String
  ttlSeconds : Int := 60
  purpose : String := "request"
  issuer : String := "ragapp-gateway"
  now : Int
  jti : String

section Ticket

variable (M : Numbers ν) (P : Primitives β ν)

def baseClaims (identity : Identity) (g : Grant) : List (String × Doc ν) :=
  identity.toDict ++
    [("aud", .str g.audience), ("purpose", .str g.purpose), ("iat", .num (M.ofInt g.now)),
      ("exp", .num (M.ofInt (g.now + g.ttlSeconds))), ("jti", .str g.jti), ("iss", .str g.issuer)]

def encodedClaims (identity : Identity) (g : Grant) (extra : Object ν) : List Char :=
  b64encode P (P.utf8 (canonical M.toNumerals (.obj (baseClaims M identity g ++ extra.val))))

def signAuthTicket (identity : Identity) (g : Grant) (extra : Object ν) : Except Err (List Char) :=
  if g.audience = "" ∨ g.ttlSeconds ≤ 0 ∨ 900 < g.ttlSeconds then
    .error (.auth "invalid ticket audience or lifetime")
  else if (baseClaims M identity g).any fun p => (extra.val.map Prod.fst).contains p.1 then
    .error (.auth "authentication ticket claims contain reserved fields")
  else
    match secretBytes P g.secret with
    | .error e => .error e
    | .ok key =>
      let encoded := encodedClaims M P identity g extra
      .ok (encoded ++ '.' :: b64encode P (P.hmac key (P.utf8 encoded)))

/-- `ticket.split(".", 1)`, when there is a dot. -/
def splitTicket (ticket : List Char) : Option (List Char × List Char) :=
  match ticket.dropWhile (· ≠ '.') with
  | _ :: rest => some (ticket.takeWhile (· ≠ '.'), rest)
  | [] => none

/-- A value that is an `int` for Python, where the two booleans are integers as well. -/
def asInt : Option (Doc ν) → Option Int
  | some (.num n) => M.toInt n
  | some (.bool b) => some (if b then 1 else 0)
  | _ => none

def isText (value : Option (Doc ν)) (s : String) : Bool :=
  match value with
  | some (.str t) => t == s
  | _ => false

/-- A list or a dictionary, for which membership in a set raises. -/
def unhashable : Option (Doc ν) → Bool
  | some (.arr _) | some (.obj _) => true
  | _ => false

/-- What `verify_auth_ticket` asks of a ticket.  The claims it is given to compare are texts. -/
structure Demand where
  secret : String
  audience : String
  purpose : Option String := none
  now : Int
  clockSkewSeconds : Int := 30
  requiredClaims : List (String × String) := []

/-- The checks on the claims of a ticket whose signature is right. -/
def checkClaims (d : Demand) (payload : Dict String (Doc ν)) : Except Err Identity :=
  if unhashable (payload.get? "iss") then .error (.other "TypeError")
  else if !(isText (payload.get? "iss") "ragapp-gateway" ||
      isText (payload.get? "iss") "ragapp-internal") || !isText (payload.get? "aud") d.audience then
    .error (.auth "authentication ticket audience mismatch")
  else if d.purpose.any fun purpose => !isText (payload.get? "purpose") purpose then
    .error (.auth "authentication ticket purpose mismatch")
  else
    match asInt M (payload.get? "iat"), asInt M (payload.get? "exp") with
    | some iat, some exp =>
      if d.now + d.clockSkewSeconds < iat then
        .error (.auth "authentication ticket is not active yet")
      else if exp ≤ d.now - d.clockSkewSeconds then
        .error (.auth "authentication ticket has expired" "internal_auth_expired")
      else if d.requiredClaims.any fun claim => !isText (payload.get? claim.1) claim.2 then
        .error (.auth "authentication ticket is not bound to this request")
      else fromMapping M P payload
    | _, _ => .error (.auth "authentication ticket has no valid lifetime")

/-- `json.loads(_b64decode(encoded))`, which has to be a dictionary. -/
def loadClaims (encoded : List Char) : Except Err (Dict String (Doc ν)) :=
  match b64decode P encoded with
  | none => .error (.auth "invalid base64 encoding")
  | some bytes =>
    match (P.ofUtf8 bytes).bind (parse M.toNumerals) with
    | some (.obj payload) => .ok payload
    | _ => .error (.auth "invalid authentication ticket payload")

variable [DecidableEq β]

def checkSignature (key : β) (encoded rawSignature : List Char) : Except Err Unit := do
  let message ← asciiBytes P encoded
  match b64decode P rawSignature with
  | none => .error (.auth "invalid base64 encoding")
  | some supplied =>
    if P.hmac key message = supplied then .ok ()
    else .error (.auth "invalid authentication ticket signature")

def verifyAuthTicket (d : Demand) (ticket : List Char) : Except Err Identity :=
  match splitTicket ticket with
  | none => .error (.auth "malformed authentication ticket")
  | some (encoded, rawSignature) => do
      let key ← secretBytes P d.secret
      checkSignature P key encoded rawSignature
      let payload ← loadClaims M P encoded
      checkClaims M P d payload

end Ticket

/-! ## Verifying what was signed -/

variable {M : Numbers ν} {P : Primitives β ν} {identity identity' : Identity} {g : Grant}
  {extra : Object ν} {ticket : List Char}

section Signed

theorem splitTicket_append {front rest : List Char} (h : ∀ c ∈ front, c ≠ '.') :
    splitTicket (front ++ '.' :: rest) = some (front, rest) := by
  have hfront : ∀ c ∈ front, decide (c ≠ '.') = true := fun c hc => by simpa using h c hc
  unfold splitTicket
  rw [List.dropWhile_append_of_pos hfront, List.takeWhile_append_of_pos hfront,
    List.dropWhile_cons_of_neg (by decide), List.takeWhile_cons_of_neg (by decide),
    List.append_nil]

theorem signAuthTicket_eq_ok (h : signAuthTicket M P identity g extra = .ok ticket) :
    ∃ key, secretBytes P g.secret = .ok key ∧
      (∀ p ∈ baseClaims M identity g, p.1 ∉ extra.val.map Prod.fst) ∧
      ticket = encodedClaims M P identity g extra ++
        '.' :: b64encode P (P.hmac key (P.utf8 (encodedClaims M P identity g extra))) := by
  obtain ⟨-, h⟩ := ok_of_ite h
  obtain ⟨hreserved, h⟩ := ok_of_ite h
  split at h
  · cases h
  · next key hkey =>
    cases h
    refine ⟨key, hkey, ?_, rfl⟩
    intro p hp hmem
    refine hreserved (List.any_eq_true.mpr ⟨p, hp, ?_⟩)
    rwa [List.contains_iff_mem]

section

variable (M) (identity) (g) (extra)

def readClaims : Dict String (Doc ν) :=
  JsonText.byKey (JsonText.sortFields (baseClaims M identity g ++ extra.val))

theorem keys_baseClaims : ((baseClaims M identity g).map Prod.fst).Nodup := by
  unfold baseClaims Identity.toDict
  cases identity.email <;> cases identity.adminId <;> cases identity.sessionId <;>
    simp [optionalField]

theorem valid_baseClaims : JsonText.validFields (baseClaims M identity g) = true := by
  unfold baseClaims Identity.toDict
  cases identity.email <;> cases identity.adminId <;> cases identity.sessionId <;> rfl

end

section

variable (h : ∀ p ∈ baseClaims M identity g, p.1 ∉ extra.val.map Prod.fst)

include h

theorem keys_claims : ((baseClaims M identity g ++ extra.val).map Prod.fst).Nodup := by
  have hextra := extra.property
  rw [Doc.valid, Bool.and_eq_true, decide_eq_true_eq] at hextra
  rw [List.map_append, List.nodup_append]
  refine ⟨keys_baseClaims M identity g, hextra.1, ?_⟩
  intro k hk k' hk' heq
  obtain ⟨p, hp, rfl⟩ := List.mem_map.mp hk
  exact h p hp (heq ▸ hk')

theorem valid_claims : (Doc.obj (baseClaims M identity g ++ extra.val)).valid = true := by
  have hextra := extra.property
  rw [Doc.valid, Bool.and_eq_true] at hextra ⊢
  refine ⟨decide_eq_true (keys_claims h), ?_⟩
  rw [JsonText.validFields_iff]
  intro p hp
  rcases List.mem_append.mp hp with hp | hp
  · exact JsonText.validFields_iff.mp (valid_baseClaims M identity g) p hp
  · exact JsonText.validFields_iff.mp hextra.2 p hp

theorem loadClaims_encodedClaims :
    loadClaims M P (encodedClaims M P identity g extra) = .ok (readClaims M identity g extra) := by
  have hparse := JsonText.parse_print M.toNumerals ⟨true, false⟩
    (JsonText.valid_sortKeys _ (valid_claims h))
  unfold loadClaims encodedClaims canonical
  rw [b64decode_b64encode]
  dsimp only
  rw [P.ofUtf8_utf8, Option.bind_some, hparse]
  rfl

end

theorem splitTicket_signed (M : Numbers ν) (P : Primitives β ν) (identity : Identity) (g : Grant)
    (extra : Object ν) (signature : List Char) :
    splitTicket (encodedClaims M P identity g extra ++ '.' :: signature) =
      some (encodedClaims M P identity g extra, signature) := by
  obtain ⟨_, _, _, hchars⟩ := base64_body P
    (P.utf8 (canonical M.toNumerals (.obj (baseClaims M identity g ++ extra.val))))
  exact splitTicket_append fun c hc => (hchars c hc).1

variable [DecidableEq β]

theorem verifyAuthTicket_eq_ok {d : Demand} (h : verifyAuthTicket M P d ticket = .ok identity') :
    ∃ encoded signature key payload, splitTicket ticket = some (encoded, signature) ∧
      secretBytes P d.secret = .ok key ∧ checkSignature P key encoded signature = .ok () ∧
      loadClaims M P encoded = .ok payload ∧ checkClaims M P d payload = .ok identity' := by
  unfold verifyAuthTicket at h
  split at h
  · cases h
  · next encoded signature hsplit =>
    obtain ⟨key, hkey, h⟩ := ok_of_bind h
    obtain ⟨_, hsig, h⟩ := ok_of_bind h
    obtain ⟨payload, hload, h⟩ := ok_of_bind h
    exact ⟨encoded, signature, key, payload, hsplit, hkey, hsig, hload, h⟩

theorem checkClaims_of_verified {d : Demand}
    (hsign : signAuthTicket M P identity g extra = .ok ticket)
    (hverify : verifyAuthTicket M P d ticket = .ok identity') :
    checkClaims M P d (readClaims M identity g extra) = .ok identity' := by
  obtain ⟨key, _, hdisjoint, rfl⟩ := signAuthTicket_eq_ok hsign
  obtain ⟨encoded, signature, key', payload, hsplit, _, _, hload, hcheck⟩ :=
    verifyAuthTicket_eq_ok hverify
  rw [splitTicket_signed] at hsplit
  simp only [Option.some.injEq, Prod.mk.injEq] at hsplit
  rw [← hsplit.1, loadClaims_encodedClaims hdisjoint] at hload
  rw [Except.ok.inj hload]
  exact hcheck

theorem verify_signed {d : Demand} (hsign : signAuthTicket M P identity g extra = .ok ticket)
    (hsecret : d.secret = g.secret) :
    verifyAuthTicket M P d ticket = checkClaims M P d (readClaims M identity g extra) := by
  obtain ⟨key, hkey, hdisjoint, rfl⟩ := signAuthTicket_eq_ok hsign
  have hascii : asciiBytes P (encodedClaims M P identity g extra) =
      .ok (P.utf8 (encodedClaims M P identity g extra)) := asciiBytes_b64encode P _
  unfold verifyAuthTicket
  rw [splitTicket_signed]
  rw [hsecret, hkey]
  simp only [Bind.bind, Except.bind, checkSignature, hascii, b64decode_b64encode, if_true,
    loadClaims_encodedClaims hdisjoint]

end Signed

/-! ## The identity of a ticket -/

section Returned

theorem get?_readClaims (h : ∀ p ∈ baseClaims M identity g, p.1 ∉ extra.val.map Prod.fst)
    (k : String) :
    (readClaims M identity g extra).get? k =
      ((Dict.get? (baseClaims M identity g) k).or (Dict.get? extra.val k)).map sortKeys := by
  rw [readClaims, JsonText.get?_byKey_sortFields (keys_claims h), Dict.get?_append]

section

variable (M) (P) (identity) (g) (extra)

theorem truthy_sortKeys (v : Option (Doc ν)) : truthy M (v.map sortKeys) = truthy M v := by
  match v with
  | none => rfl
  | some .null | some (.bool _) | some (.num _) | some (.str _) => rfl
  | some (.arr []) | some (.arr (_ :: _)) => rfl
  | some (.obj fields) =>
    have hlen := (JsonText.byKey_perm (JsonText.sortFields fields)).length_eq
    rw [JsonText.sortFields_eq_map, List.length_map] at hlen
    rw [Option.map_some, sortKeys, truthy, truthy, JsonText.sortFields_eq_map]
    cases fields with
    | nil => rfl
    | cons p rest =>
      cases hsorted : JsonText.byKey ((p :: rest).map fun p => (p.1, sortKeys p.2)) with
      | nil =>
        rw [hsorted] at hlen
        cases hlen
      | cons q qs => rfl

theorem get?_baseClaims {claims : Dict String (Doc ν)}
    (hclaims : baseClaims M identity g = claims) :
    claims.get? "tenant_id" = some (.str identity.tenantId) ∧
    claims.get? "user_id" = some (.str identity.userId) ∧
    claims.get? "role" = some (.str identity.role.text) ∧
    claims.get? "email" = identity.email.map .str ∧
    claims.get? "admin_id" = identity.adminId.map .str ∧
    claims.get? "session_id" = identity.sessionId.map .str ∧
    claims.get? "iss" = some (.str g.issuer) ∧ claims.get? "aud" = some (.str g.audience) ∧
    claims.get? "purpose" = some (.str g.purpose) ∧
    claims.get? "iat" = some (.num (M.ofInt g.now)) ∧
    claims.get? "exp" = some (.num (M.ofInt (g.now + g.ttlSeconds))) := by
  rw [← hclaims]
  unfold baseClaims Identity.toDict
  cases identity.email <;> cases identity.adminId <;> cases identity.sessionId <;>
    simp [optionalField, Dict.get?]

/-- A field of an identity comes back as it was: it is a text that is not empty, or it is absent and
the extra claims give nothing in its place. -/
def Kept (key : String) (value : Option String) : Prop :=
  match value with
  | some s => s ≠ ""
  | none => truthy M (Dict.get? extra.val key) = false

end

section

variable (h : ∀ p ∈ baseClaims M identity g, p.1 ∉ extra.val.map Prod.fst)

include h

theorem requiredText_readClaims {key s : String}
    (hkey : Dict.get? (baseClaims M identity g) key = some (.str s)) (hs : s ≠ "") :
    requiredText M P (readClaims M identity g extra) key = s := by
  unfold requiredText
  rw [get?_readClaims h, hkey, Option.some_or, Option.map_some, sortKeys]
  simp [truthy, hs, P.str_str]

theorem optionalText_readClaims {key : String} {value : Option String}
    (hkey : Dict.get? (baseClaims M identity g) key = value.map .str) :
    optionalText M P (readClaims M identity g extra) key = value ↔ Kept M extra key value := by
  unfold optionalText
  rw [get?_readClaims h, hkey, truthy_sortKeys]
  cases value with
  | some s =>
    by_cases hs : s = ""
    · simp [Kept, truthy, hs]
    · simp [Kept, truthy, hs, sortKeys, P.str_str]
  | none =>
    rw [Option.map_none, Option.none_or]
    cases htruthy : truthy M (Dict.get? extra.val key) with
    | false => simp [Kept, htruthy]
    | true =>
      cases hget : Dict.get? extra.val key with
      | none =>
        rw [hget] at htruthy
        cases htruthy
      | some v => simp [Kept, htruthy]

/-- The identity read from the claims of a ticket is the one it was issued for exactly when each
optional field comes back as it was. -/
theorem fromMapping_readClaims :
    ∃ identity', fromMapping M P (readClaims M identity g extra) = .ok identity' ∧
      (identity' = identity ↔ Kept M extra "email" identity.email ∧
        Kept M extra "admin_id" identity.adminId ∧ Kept M extra "session_id"
          identity.sessionId) := by
  obtain ⟨htenant, huser, hrole, hemail, hadmin, hsession, -⟩ := get?_baseClaims M identity g rfl
  have hrole_ne : identity.role.text ≠ "" := by
    cases identity.role <;> decide
  have htenant' := requiredText_readClaims (P := P) h htenant identity.tenant_ne
  have huser' := requiredText_readClaims (P := P) h huser identity.user_ne
  have hrole' := requiredText_readClaims (P := P) h hrole hrole_ne
  have hemail' := optionalText_readClaims (P := P) h hemail
  have hadmin' := optionalText_readClaims (P := P) h hadmin
  have hsession' := optionalText_readClaims (P := P) h hsession
  refine ⟨{ identity with
    email := optionalText M P (readClaims M identity g extra) "email"
    adminId := optionalText M P (readClaims M identity g extra) "admin_id"
    sessionId := optionalText M P (readClaims M identity g extra) "session_id" }, ?_, ?_⟩
  · unfold fromMapping
    rw [dif_pos (by rw [htenant', huser']; exact ⟨identity.tenant_ne, identity.user_ne⟩)]
    simp only [htenant', huser', hrole', Role.ofText_text]
  · rw [← hemail', ← hadmin', ← hsession']
    cases identity
    simp

end

theorem checkClaims_eq_ok {d : Demand} {payload : Dict String (Doc ν)}
    (h : checkClaims M P d payload = .ok identity') :
    isText (payload.get? "aud") d.audience = true ∧
      (∀ claim ∈ d.requiredClaims, isText (payload.get? claim.1) claim.2 = true) ∧
      fromMapping M P payload = .ok identity' := by
  obtain ⟨-, h⟩ := ok_of_ite h
  obtain ⟨haud, h⟩ := ok_of_ite h
  obtain ⟨-, h⟩ := ok_of_ite h
  split at h
  · obtain ⟨-, h⟩ := ok_of_ite h
    obtain ⟨-, h⟩ := ok_of_ite h
    obtain ⟨hrequired, h⟩ := ok_of_ite h
    simp only [Bool.or_eq_true, Bool.not_eq_true', not_or, Bool.not_eq_false] at haud
    exact ⟨haud.2, by simpa using hrequired, h⟩
  · cases h

variable [DecidableEq β]

/-- The identity that a ticket is verified for is the one it was issued for exactly when every
optional field is a text that is not empty, or is absent and no extra claim stands in its place. -/
theorem verified_identity_iff_kept {d : Demand}
    (hsign : signAuthTicket M P identity g extra = .ok ticket)
    (hverify : verifyAuthTicket M P d ticket = .ok identity') :
    identity' = identity ↔ Kept M extra "email" identity.email ∧
      Kept M extra "admin_id" identity.adminId ∧ Kept M extra "session_id" identity.sessionId := by
  obtain ⟨_, _, hdisjoint, _⟩ := signAuthTicket_eq_ok hsign
  obtain ⟨returned, hreturned, hiff⟩ := fromMapping_readClaims hdisjoint
  have hread := (checkClaims_eq_ok (checkClaims_of_verified hsign hverify)).2.2
  rw [hreturned] at hread
  cases hread
  exact hiff

end Returned

/-! ## Runs -/

def hexText (t : List Char) : List Char :=
  t.flatMap fun c => JsonText.hex4 (c.toNat / 0x10000) ++ JsonText.hex4 (c.toNat % 0x10000)

def ofHexText : List Char → Option (List Char)
  | a :: b :: c :: d :: e :: f :: g :: h :: rest => do
      let (high, _) ← JsonText.readHex4 [a, b, c, d]
      let (low, _) ← JsonText.readHex4 [e, f, g, h]
      let cs ← ofHexText rest
      some (Char.ofNat (high * 0x10000 + low) :: cs)
  | [] => some []
  | _ => none

theorem ofHexText_hexText (t : List Char) : ofHexText (hexText t) = some t := by
  induction t with
  | nil => rfl
  | cons c t ih =>
    obtain ⟨hmax, _⟩ := JsonText.toNat_bounds c
    have hhigh := JsonText.readHex4_hex4 (n := c.toNat / 0x10000) (by omega) []
    have hlow := JsonText.readHex4_hex4 (n := c.toNat % 0x10000) (by omega) []
    have hsum : c.toNat / 0x10000 * 0x10000 + c.toNat % 0x10000 = c.toNat := by omega
    unfold JsonText.hex4 at hhigh hlow
    simp only [List.cons_append, List.nil_append] at hhigh hlow
    unfold hexText at ih ⊢
    unfold JsonText.hex4 at ih ⊢
    rw [List.flatMap_cons]
    simp only [List.cons_append, List.nil_append] at ih ⊢
    rw [ofHexText, hhigh]
    simp only [Option.bind_eq_bind, Option.bind_some, hlow, ih, hsum, Char.ofNat_toNat]

theorem hexText_chars (t : List Char) :
    (hexText t).length % 4 = 0 ∧ ∀ c ∈ hexText t, c ≠ '=' ∧ c ≠ '.' ∧ c.toNat < 0x80 := by
  have hdigit : ∀ n, n % 16 < 16 := fun n => Nat.mod_lt n (by decide)
  have hchar : ∀ n, n < 16 → n.digitChar ≠ '=' ∧ n.digitChar ≠ '.' ∧ n.digitChar.toNat < 0x80 := by
    decide
  induction t with
  | nil => exact ⟨rfl, fun _ h => (List.not_mem_nil h).elim⟩
  | cons c t ih =>
    unfold hexText at ih ⊢
    rw [List.flatMap_cons]
    constructor
    · rw [List.length_append]
      simp only [JsonText.hex4, List.cons_append, List.nil_append, List.length_cons,
        List.length_nil] at ih ⊢
      omega
    · intro d hd
      rcases List.mem_append.mp hd with hd | hd
      · simp only [JsonText.hex4, List.cons_append, List.nil_append, List.mem_cons,
          List.not_mem_nil, or_false] at hd
        rcases hd with rfl | rfl | rfl | rfl | rfl | rfl | rfl | rfl <;>
          exact hchar _ (hdigit _)
      · exact ih.2 d hd

/-- Texts for byte strings, a hash that keeps its input, and a keyed hash that keeps both. -/
def samplePrimitives : Primitives (List Char) Int where
  utf8 t := t
  ofUtf8 := some
  ofUtf8_utf8 _ := rfl
  size := List.length
  base64 := hexText
  ofBase64 := ofHexText
  ofBase64_base64 := ofHexText_hexText
  base64_length t := (hexText_chars t).1
  base64_shape t := ⟨hexText t, 0, by simp, by decide, (hexText_chars t).2⟩
  hmac key message := key ++ message
  sha256 := String.ofList
  str
    | .str s => s
    | _ => ""
  str_str _ := rfl

def sampleNumbers : Numbers Int where
  toNumerals := JsonText.intNumerals
  ofInt n := n
  toInt := some
  toInt_ofInt _ := rfl
  isZero n := n == 0

def sampleUser : Identity where
  tenantId := "t"
  userId := "u"
  role := .user
  tenant_ne := by decide
  user_ne := by decide

def sampleGrant : Grant where
  secret := "a secret of thirty-two characters"
  audience := "rag"
  now := 1000
  jti := "j"

def sampleDemand : Demand where
  secret := "a secret of thirty-two characters"
  audience := "rag"
  purpose := some "request"
  now := 1010

def oneClaim (key value : String) : Object Int := ⟨[(key, .str value)], rfl⟩

theorem exists_ok {ε α : Type} {x : Except ε α} (h : x.toOption.isSome = true) :
    ∃ a, x = .ok a := by
  cases x with
  | error e => cases h
  | ok a => exact ⟨a, rfl⟩

theorem sample_verified (extra : Object Int) (who : Identity)
    (hissued : (signAuthTicket sampleNumbers samplePrimitives sampleUser sampleGrant
      extra).toOption.isSome = true)
    (hclaims : checkClaims sampleNumbers samplePrimitives sampleDemand
      (readClaims sampleNumbers sampleUser sampleGrant extra) = .ok who) :
    ∃ ticket, signAuthTicket sampleNumbers samplePrimitives sampleUser sampleGrant extra =
        .ok ticket ∧
      verifyAuthTicket sampleNumbers samplePrimitives sampleDemand ticket = .ok who := by
  obtain ⟨ticket, hsign⟩ := exists_ok hissued
  exact ⟨ticket, hsign, (verify_signed hsign rfl).trans hclaims⟩

/-- A claim of its own leaves the identity as it was. -/
theorem verified_identity_iff_kept_note :
    ∃ ticket, signAuthTicket sampleNumbers samplePrimitives sampleUser sampleGrant
        (oneClaim "note" "n") = .ok ticket ∧
      verifyAuthTicket sampleNumbers samplePrimitives sampleDemand ticket = .ok sampleUser ∧
      (sampleUser = sampleUser ↔ Kept sampleNumbers (oneClaim "note" "n") "email" sampleUser.email ∧
        Kept sampleNumbers (oneClaim "note" "n") "admin_id" sampleUser.adminId ∧
        Kept sampleNumbers (oneClaim "note" "n") "session_id" sampleUser.sessionId) := by
  obtain ⟨ticket, hsign, hverify⟩ :=
    sample_verified (oneClaim "note" "n") sampleUser (by decide +kernel) (by decide +kernel)
  exact ⟨ticket, hsign, hverify, verified_identity_iff_kept hsign hverify⟩

/-- An extra claim sets the email of an identity that has none. -/
theorem extra_claim_sets_email :
    ∃ ticket identity', signAuthTicket sampleNumbers samplePrimitives sampleUser sampleGrant
        (oneClaim "email" "other@example.org") = .ok ticket ∧
      verifyAuthTicket sampleNumbers samplePrimitives sampleDemand ticket = .ok identity' ∧
      identity' ≠ sampleUser ∧ identity'.email = some "other@example.org" := by
  obtain ⟨ticket, hsign, hverify⟩ :=
    sample_verified (oneClaim "email" "other@example.org")
      { sampleUser with email := some "other@example.org" } (by decide +kernel) (by decide +kernel)
  exact ⟨ticket, _, hsign, hverify, by decide, rfl⟩

end RagForge.Auth
