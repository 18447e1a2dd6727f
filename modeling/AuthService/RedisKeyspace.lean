import AuthService.IdempotencyExtension
import AuthService.RateLimitMiddleware

set_option autoImplicit false

/-! The key strings of the token store, the rate limiter and the idempotency store, which
share one Redis database. -/
namespace AuthService.RedisKeyspace
open Uuids PythonText ExpiringMaps RedisSessions RateLimiter RateLimitMiddleware IdempotencyExtension

/-- The operations in `_RATE_LIMITS`. -/
def limitedOperations : List String := rateLimits.map Prod.fst

/-- An operation name from a list. -/
abbrev OperationIn (names : List String) := {operation : String // operation ∈ names}

/-- `rl:{op}:email:{address}`. -/
def emailKey (operation address : String) : String := "rl:" ++ (operation ++ ":email:" ++ address)

def counterKey (operation : String) : Dimension → String → String
  | .ip, ip => ipKey operation ip
  | .email, address => emailKey operation address

theorem emailKey_inj {operation x y : String} : emailKey operation x = emailKey operation y ↔
    x = y := by
  refine ⟨fun h => String.toList_inj.1 ?_, fun h => by rw [h]⟩
  have ht := congrArg String.toList h
  simpa only [emailKey, String.toList_append, List.append_cancel_left_eq] using ht

/-- What a Redis key is for; an e-mail counter belongs to a normalised address. -/
inductive LogicalKey where
  | session (key : Key)
  | counter (operation : OperationIn limitedOperations) (dimension : Dimension) (value : String)
  | record (operation : OperationIn idempotentOperations) (idempotencyKey : String)
  deriving DecidableEq

def LogicalKey.text : LogicalKey → String
  | .session key => key.text
  | .counter operation dimension value => counterKey operation dimension value
  | .record operation idempotencyKey => makeKey operation idempotencyKey

theorem checkIp_redisKey (ip operation : String) (limit : ℤ) (window : ℕ) :
    (checkIp ip operation limit window).redisKey = ipKey operation ip := rfl

theorem checkEmail_redisKey (u : Unicode) (email operation : String) (limit : ℤ) (window : ℕ) :
    (checkEmail u email operation limit window).redisKey =
      emailKey operation (strip (u.lowerText email)) := rfl

def Dimension.text : Dimension → String
  | .ip => "ip"
  | .email => "email"

/-- The fields in front of the first colon. -/
inductive Family where
  | access
  | refresh
  | session
  | sessions
  | rl
  | idempotency

def Family.text : Family → String
  | .access => "access"
  | .refresh => "refresh"
  | .session => "session"
  | .sessions => "sessions"
  | .rl => "rl"
  | .idempotency => "idempotency"

def LogicalKey.family : LogicalKey → Family
  | .session (.access _) => .access
  | .session (.refresh _) => .refresh
  | .session (.session _) => .session
  | .session (.sessions _) => .sessions
  | .counter _ _ _ => .rl
  | .record _ _ => .idempotency

/-- The text behind the first colon. -/
def LogicalKey.rest : LogicalKey → String
  | .session (.access jti) => jti
  | .session (.refresh token) => token
  | .session (.session sessionId) => sessionId.str
  | .session (.sessions userId) => userId.str
  | .counter operation dimension value => operation ++ ":" ++ (Dimension.text dimension ++ ":" ++ value)
  | .record operation idempotencyKey => operation ++ ":" ++ idempotencyKey

theorem counterKey_eq (operation value : String) (dimension : Dimension) :
    counterKey operation dimension value =
      "rl" ++ ":" ++ (operation ++ ":" ++ (Dimension.text dimension ++ ":" ++ value)) := by
  refine String.toList_inj.1 ?_
  cases dimension <;> simp [counterKey, ipKey, emailKey, Dimension.text, String.toList_append]

theorem text_eq (k : LogicalKey) : k.text = k.family.text ++ ":" ++ k.rest := by
  cases k with
  | session key => cases key <;> rfl
  | counter operation dimension value => exact counterKey_eq _ _ _
  | record operation idempotencyKey =>
    refine String.toList_inj.1 ?_
    simp [LogicalKey.text, LogicalKey.family, Family.text, LogicalKey.rest, makeKey,
      String.toList_append]

theorem family_colon (f : Family) : ':' ∉ f.text.toList := by
  cases f <;> decide

theorem family_text_inj {f f' : Family} : f.text = f'.text ↔ f = f' := by
  cases f <;> cases f' <;> simp [Family.text]

theorem dimension_colon (d : Dimension) : ':' ∉ (Dimension.text d).toList := by
  cases d <;> decide

theorem dimension_text_inj {d d' : Dimension} : Dimension.text d = Dimension.text d' ↔ d = d' := by
  cases d <;> cases d' <;> decide

theorem limited_colon : ∀ operation ∈ limitedOperations, ':' ∉ operation.toList := by decide

theorem idempotent_colon : ∀ operation ∈ idempotentOperations, ':' ∉ operation.toList := by decide

/-- Keys of one family with the same text behind the colon are the same. -/
theorem rest_injective {k l : LogicalKey} (hf : k.family = l.family) (hr : k.rest = l.rest) :
    k = l := by
  cases k with
  | session key =>
    cases l with
    | session key' =>
      refine congrArg _ (Key.text_injective ?_)
      have htext : (LogicalKey.session key).text = (LogicalKey.session key').text := by
        rw [text_eq, text_eq, hf, hr]
      exact htext
    | counter _ _ _ => cases key <;> cases hf
    | record _ _ => cases key <;> cases hf
  | counter operation dimension value =>
    cases l with
    | session key => cases key <;> cases hf
    | counter operation' dimension' value' =>
      obtain ⟨hop, hrest⟩ := (colon_append_inj (limited_colon _ operation.2)
        (limited_colon _ operation'.2)).1 hr
      obtain ⟨hdim, rfl⟩ := (colon_append_inj (dimension_colon _) (dimension_colon _)).1 hrest
      rw [Subtype.ext hop, dimension_text_inj.1 hdim]
    | record _ _ => cases hf
  | record operation idempotencyKey =>
    cases l with
    | session key => cases key <;> cases hf
    | counter _ _ _ => cases hf
    | record operation' idempotencyKey' =>
      obtain ⟨hop, rfl⟩ := (colon_append_inj (idempotent_colon _ operation.2)
        (idempotent_colon _ operation'.2)).1 hr
      rw [Subtype.ext hop]

theorem text_injective : Function.Injective LogicalKey.text := by
  intro k l h
  rw [text_eq, text_eq] at h
  obtain ⟨hf, hr⟩ := (colon_append_inj (family_colon k.family) (family_colon l.family)).1 h
  exact rest_injective (family_text_inj.1 hf) hr

section Components
variable (nowIso : String) (sid uid : UUID) (jti token oldJti oldToken : String)
  (device : Option String) (accessTtl refreshTtl : ℕ) (r : Redis)

theorem create_payload :
    (getdel token (createPipeline nowIso sid uid jti token device accessTtl refreshTtl r)).1.bind
      splitColon = some (uid.str, sid.str) := by
  rw [getdel, ExpiringMap.value, create_refresh, if_pos rfl, Option.map_some,
    Option.bind_some, splitColon_payload]

theorem rotate_payload :
    (getdel token (rotatePipeline nowIso sid uid oldJti oldToken jti token accessTtl refreshTtl
      r)).1.bind
      splitColon = some (uid.str, sid.str) := by
  rw [getdel, ExpiringMap.value, rotate_refresh, if_pos rfl, Option.map_some,
    Option.bind_some, splitColon_payload]

end Components

/-- No two entries share a key, and a stored payload splits into the identifiers written. -/
theorem keyspace_unambiguous (u : Unicode) :
    Function.Injective LogicalKey.text ∧
      (∀ (operation : OperationIn limitedOperations) (limit : ℤ) (window : ℕ) (value : String),
        (checkIp value operation limit window).redisKey =
            (LogicalKey.counter operation .ip value).text ∧
          (checkEmail u value operation limit window).redisKey =
            (LogicalKey.counter operation .email (strip (u.lowerText value))).text) ∧
      ∀ (nowIso : String) (sid uid : UUID) (jti token oldJti oldToken : String)
        (device : Option String) (accessTtl refreshTtl : ℕ) (r : Redis),
        (getdel token (createPipeline nowIso sid uid jti token device accessTtl refreshTtl r)).1.bind
            splitColon = some (uid.str, sid.str) ∧
          (getdel token (rotatePipeline nowIso sid uid oldJti oldToken jti token accessTtl refreshTtl
            r)).1.bind splitColon = some (uid.str, sid.str) := by
  refine ⟨text_injective, ?_, ?_⟩
  · intro operation limit window value
    exact ⟨checkIp_redisKey _ _ _ _, checkEmail_redisKey _ _ _ _ _⟩
  · intro nowIso sid uid jti token oldJti oldToken device accessTtl refreshTtl r
    exact ⟨create_payload _ _ _ _ _ _ _ _ _, rotate_payload _ _ _ _ _ _ _ _ _ _⟩

end AuthService.RedisKeyspace
