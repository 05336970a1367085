import IdpServer.Laws.Http.Profiles
import IdpServer.Laws.Http.Reencoding
import IdpServer.Laws.Authn.ClosedLogins
import IdpServer.Laws.Authn.Strength
import IdpServer.Laws.Authn.Replay
import IdpServer.Laws.Authn.Overlap
import IdpServer.Laws.Authn.FirstLogins
import IdpServer.Laws.Enrolment.Passkeys
import IdpServer.Laws.Enrolment.Secrets
import IdpServer.Laws.Session.Markers
import IdpServer.Laws.Crypto.Exponents
import IdpServer.Laws.Crypto.Pairing
import IdpServer.Laws.Cache.DeadTokens
import IdpServer.Laws.Token.Successors
import IdpServer.Laws.Token.Families
import IdpServer.Laws.Federation.States
import IdpServer.Laws.Http.Redirects
import IdpServer.Laws.Http.Logins
import IdpServer.Laws.Http.LocalTargets
import IdpServer.Laws.Rbac.Masks
import IdpServer.Laws.Rbac.Privileges
import IdpServer.Laws.Consent.Granting
import IdpServer.Laws.Cache.SessionReads
import IdpServer.Laws.Cache.KeyClashes
import IdpServer.Laws.Cache.Reservations
import IdpServer.Laws.Authn.Unlocking
import IdpServer.Laws.Authn.Recognition
import IdpServer.Laws.Authn.FailedLogins
import IdpServer.Laws.Audit.RoundTrip
import IdpServer.Laws.Token.Descent
import IdpServer.Laws.Token.AuthTime
import IdpServer.Laws.Clients.Authentication
import IdpServer.Laws.Device.Expiry
import IdpServer.Laws.Session.Index
import IdpServer.Laws.Authn.Usernames
import IdpServer.Laws.Security.StoredSecrets
