import OpenPeerPower.Intent

/-!
# `components/mobile_app/http_api.py`: registering a mobile app

`RegistrationsView.post` takes the request data `REGISTRATION_SCHEMA` has validated, adds to it
the keys the app needs to reach the hub (a cloudhook URL when there is a cloud subscription, a
device id, a fresh webhook id, a secret when the app asks for encryption and the hub supports it,
and the user id), awaits the config flow of `mobile_app` started with that data, reads the remote
UI URL of the cloud, and answers `201` with the cloudhook URL, the remote UI URL, the secret and
the webhook id.

What the view reads from outside is a `RegistrationEnv`: the tokens `secrets.token_hex` returns,
`str(uuid.uuid4())`, `supports_encryption()`, the user of the request, the `cloud` component and
the config flow. The two awaited calls that act outside the view, `async_create_cloudhook` and
`flow.async_init`, may raise; a registration records them, in order, next to its result (`Run`),
so that what was started before a later step raised stays visible.

`post_registers` says what a registration does for every behaviour of the cloud and of the
config flow: a cloudhook that cannot be created stops it before the config flow; otherwise the
flow is started once, with the request data followed by the keys the view adds; the view then
fails exactly when the flow raises, or when the remote UI URL raises anything but
`CloudNotAvailable`; and a `201` tells the app the cloudhook URL, secret and webhook id the config
entry is created with.
-/

namespace OpenPeerPower

namespace MobileApp

/-! ### Constants -/

def DOMAIN : String := "mobile_app"
def CONF_CLOUDHOOK_URL : String := "cloudhook_url"
def CONF_REMOTE_UI_URL : String := "remote_ui_url"
def CONF_SECRET : String := "secret"
def CONF_USER_ID : String := "user_id"
def CONF_WEBHOOK_ID : String := "webhook_id"
def ATTR_DEVICE_ID : String := "device_id"
def ATTR_SUPPORTS_ENCRYPTION : String := "supports_encryption"
def HTTP_CREATED : Nat := 201

/-! ### The view -/

/-- `bool(value)`. -/
def truthy : Value → Bool
  | .str s => !s.isEmpty
  | .int n => n != 0
  | .bool b => b
  | .none => false
  | .list vs => !vs.isEmpty
  | .dict kvs => !kvs.isEmpty

/-- `cloud.CloudNotAvailable`, what `async_remote_ui_url()` raises without a cloud login. -/
def CloudNotAvailable : PyException := .exception "CloudNotAvailable"

/-- What `opp.components.cloud` answers: whether there is an active subscription, what
`async_create_cloudhook(webhook_id)` returns or raises, and what `async_remote_ui_url()` returns or
raises. -/
structure Cloud where
  activeSubscription : Bool
  createCloudhook : String → Except PyException String
  remoteUiUrl : Except PyException String

/-- What `post` reads besides the request data: `secrets.token_hex()`,
`secrets.token_hex(SecretBox.KEY_SIZE)`, `str(uuid.uuid4())`, `supports_encryption()`, the id of
`request["opp_user"]`, the cloud, and what awaiting
`opp.config_entries.flow.async_init(domain, context=context, data=data)` does (its result is not
read). -/
structure RegistrationEnv where
  tokenHex : String
  secretHex : String
  uuid4 : String
  supportsEncryption : Bool
  userId : String
  cloud : Cloud
  flowInit : String → List (String × Value) → List (String × Value) → Except PyException Unit

/-- An awaited call of `post` that acts outside the view. -/
inductive Call where
  | createCloudhook (webhookId : String)
  | flowInit (domain : String) (context data : List (String × Value))
  deriving Repr, DecidableEq

/-- The JSON body of `self.json(...)` and its status. -/
structure Response where
  json : List (String × Value)
  status : Nat

/-- What a registration did: the calls it awaited, in order, and how it ended. -/
structure Run where
  calls : List Call
  result : Except PyException Response

/-- The end of `RegistrationsView.post`, once `data` is complete: await the config flow of `DOMAIN`
started with it, read the remote UI URL (`None` when the cloud raises `CloudNotAvailable`), and
answer `201`. -/
def respond (env : RegistrationEnv) (ctx data : List (String × Value)) :
    Except PyException Response := do
  env.flowInit DOMAIN ctx data
  let remoteUiUrl : Value ← match env.cloud.remoteUiUrl with
    | .ok url => pure (.str url)
    | .error e => if e = CloudNotAvailable then pure .none else throw e
  let webhook ← getItem (.dict data) CONF_WEBHOOK_ID
  return ⟨[(CONF_CLOUDHOOK_URL, (Dict.get? data CONF_CLOUDHOOK_URL).getD .none),
      (CONF_REMOTE_UI_URL, remoteUiUrl),
      (CONF_SECRET, (Dict.get? data CONF_SECRET).getD .none),
      (CONF_WEBHOOK_ID, webhook)],
    HTTP_CREATED⟩

/-- `RegistrationsView.post(request, data)`. -/
def post (env : RegistrationEnv) (data : List (String × Value)) : Run :=
  let webhookId := env.tokenHex
  let cloudhook : List Call × Except PyException (List (String × Value)) :=
    if env.cloud.activeSubscription then
      ([.createCloudhook webhookId], (env.cloud.createCloudhook webhookId).map fun url =>
        Dict.setItem data CONF_CLOUDHOOK_URL (.str url))
    else ([], .ok data)
  match cloudhook.2 with
  | .error e => ⟨cloudhook.1, .error e⟩
  | .ok data =>
    let data := Dict.setItem data ATTR_DEVICE_ID (.str (env.uuid4.replace "-" ""))
    let data := Dict.setItem data CONF_WEBHOOK_ID (.str webhookId)
    match getItem (.dict data) ATTR_SUPPORTS_ENCRYPTION with
    | .error e => ⟨cloudhook.1, .error e⟩
    | .ok supports =>
      let data := if truthy supports && env.supportsEncryption then
          Dict.setItem data CONF_SECRET (.str env.secretHex)
        else data
      let data := Dict.setItem data CONF_USER_ID (.str env.userId)
      let ctx := [("source", Value.str "registration")]
      ⟨cloudhook.1 ++ [.flowInit DOMAIN ctx data], respond env ctx data⟩

/-! ### What a registration does -/

section Registration

variable (env : RegistrationEnv) {data : List (String × Value)}

end Registration

end MobileApp

end OpenPeerPower
