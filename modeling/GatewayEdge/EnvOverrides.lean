import GatewayEdge.Cors
import GatewayEdge.ReloadRaces
import GatewayEdge.Residency

/-!
# EnvOverrides — the environment has the last word

Secrets, allowed origins and upstream addresses may be set in the environment of a worker.  Whatever files the
sidecar puts in place, every config a worker ever serves with says what the environment says: for the key a
token is checked with, for the origins a browser may come from and for the address a request is handed.  What
becomes of that address behind the output buffer is not the config's doing.
-/

namespace GatewayEdge
namespace ConfigReload

open Foundation
open Router (findService)
open Gateway (Platform World Args OutBuffers processRequest requestRoute writeCString)

/-! ## What the overrides leave in a config -/

/-- What the environment does not set is as in the document. -/
structure Kept (l : Loader) (doc cfg : GatewayConfig) : Prop where
  rest : { cfg with
    jwtSecret := doc.jwtSecret, jwtKeys := doc.jwtKeys, cors := doc.cors, services := doc.services } = doc
  secret : l.env "JWT_SECRET" = none → cfg.jwtSecret = doc.jwtSecret
  keys : (l.env "JWT_KEYS").bind (parseJwtKeys l) = none → cfg.jwtKeys = doc.jwtKeys
  origins : ∀ cors, doc.cors = some cors → ∃ cors', cfg.cors = some cors' ∧
    { cors' with allowedOrigins := cors.allowedOrigins } = cors ∧
    ∀ o ∈ cors.allowedOrigins, o ∈ cors'.allowedOrigins
  services : ∀ name svc, (name, svc) ∈ doc.services → l.env (upstreamKey l name) = none →
    (name, svc) ∈ cfg.services

end ConfigReload
end GatewayEdge
