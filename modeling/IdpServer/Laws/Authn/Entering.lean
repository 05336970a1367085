import IdpServer.Laws.Authn.Grounds

/-!
# Laws.Authn.Entering — the commands of a login, part by part

What `Authenticate` sends besides its session and the counts of a failure. Laws about commands look at
`Entering` instead of the code.
-/

namespace IdpServer.Laws.Authn

open Conc IdpServer.Cache Go IdpServer.Authn

inductive Entering (env : Env) : Label → (World → World) → Prop
  | verifyPassword (userID : Int) : Entering env (.verifyPassword userID) fun w => w
  | resetLoginFailByUser (name : String) : Entering env (.resetLoginFailByUser name) fun w =>
      { w with limits := { w.limits with failUser := w.limits.failUser.del name } }
  | resetBlacklistByUser (name : String) : Entering env (.resetBlacklistByUser name) fun w =>
      { w with limits := { w.limits with blacklistUser := w.limits.blacklistUser.del name } }
  | resetLoginFailByIP (ip : String) : Entering env (.resetLoginFailByIP ip) fun w =>
      { w with limits := { w.limits with failIP := w.limits.failIP.del ip } }
  | clearIPLock (ip : String) : Entering env (.clearIPLock ip) fun w =>
      { w with limits := { w.limits with ipLock := w.limits.ipLock.del ip } }
  | createUser (u : User) : Entering env (.createUser u) fun w =>
      { w with db := (w.db.createUser env.sqlEq u).2 }
  | saveMFAChallenge (e : MFAChallengeEntry) (ttl : Int) : Entering env (.saveMFAChallenge e ttl) fun w =>
      { w with mfa := (Cache.saveMFAChallenge w.mfa w.now e ttl).2 }
  | hmgetMFAChallenge (id : String) : Entering env (.hmgetMFAChallenge id) fun w => w
  | bitfieldMFAChallenge (id : String) : Entering env (.bitfieldMFAChallenge id) fun w => w

variable {env : Env}

/-! ## The first factor -/

theorem readUser_silent (g : World → Option User) :
    (Prog.call AuthnError.store (Prog.read g : Action (Option User))).run.Silent :=
  .call fun _ => trivial

variable (username ipAddress : String) (draws : LoginDraws)

theorem lookupUserByUsername_silent : (lookupUserByUsername env username).run.Silent := by
  unfold lookupUserByUsername
  split
  · trivial
  · exact readUser_silent _

theorem preparePasswordAuthentication_silent :
    (preparePasswordAuthentication env username ipAddress).run.Silent := by
  refine .bind_except (checkIPLock_silent _) fun _ => ?_
  refine .bind_except (lookupUserByUsername_silent _) fun found => ?_
  cases found with
  | none => trivial
  | some user => exact .ask fun _ => .require_then trivial

theorem passwordMethod_entering (password : String) (prefetched : Option User) :
    (passwordMethod env username password prefetched).run.Acts (Entering env) := by
  refine .require_then (.bind_except ?_ fun user => .found_then fun user => .require_then (.require_then ?_))
  · unfold passwordUser
    split
    · trivial
    · exact (readUser_silent _).acts
  · exact .bind_except (.lift ⟨.verifyPassword _, fun _ => trivial⟩) fun valid => .require_then trivial

/-! ## The account -/

theorem resolveExistingUser_silent (result : MethodResult) :
    (resolveExistingUser env result).run.Silent := by
  unfold resolveExistingUser
  split
  · trivial
  · refine .bind_except ?_ fun bySubject => ?_
    · unfold findBySubject
      split
      · trivial
      · refine .bind_except (readUser_silent _) fun user => ?_
        cases user with
        | some user => trivial
        | none => exact .provided (readUser_silent _)
    cases bySubject with
    | some user => trivial
    | none =>
      refine .bind_except (lookupUserByUsername_silent _) fun byName => ?_
      cases byName with
      | some user => trivial
      | none => exact .provided (readUser_silent _)

theorem resolveUser_entering (method : AuthnMethodType) (result : MethodResult) :
    (resolveUser env draws method result).run.Acts (Entering env) := by
  refine .bind_except (resolveExistingUser_silent result).acts fun user => ?_
  split
  · unfold provisionFederatedUser
    split
    · trivial
    · refine .bind_except (firstFree_silent _).acts fun username => ?_
      refine .bind_except (.lift (.call ⟨.createUser _, fun _ => trivial⟩)) fun made => ?_
      split
      · trivial
      · refine .bind_except (.lift (resolveExistingUser_silent result).acts) fun again => ?_
        split <;> trivial
  · trivial

/-! ## Past the first factor -/

theorem resetPasswordRateLimit_entering :
    (resetPasswordRateLimit username ipAddress).run.Acts (Entering env) := by
  refine .bind_except ?_ fun _ => ?_
  · unfold resetUserLimits
    split
    · trivial
    · exact .bind_except (.call ⟨.resetLoginFailByUser _, fun _ => trivial⟩)
        fun _ => .call ⟨.resetBlacklistByUser _, fun _ => trivial⟩
  · unfold resetIPLimits
    split
    · trivial
    · exact .bind_except (.call ⟨.resetLoginFailByIP _, fun _ => trivial⟩)
        fun _ => .call ⟨.clearIPLock _, fun _ => trivial⟩

theorem liveChallenge_entering (id : String) (now : Int) :
    (liveChallenge id now).run.Acts (Entering env) := by
  refine .bind_except (.call ?_) fun challenge => .found_then fun challenge => .require_then trivial
  exact ⟨.hmgetMFAChallenge _, fun _ => ⟨.bitfieldMFAChallenge _, fun _ => trivial⟩⟩

theorem challengeLogin_entering (input : AuthenticateInput) (user : User) (redirectURI : String)
    (passkeyAvailable : Bool) :
    (challengeLogin env draws input user redirectURI passkeyAvailable).run.Acts (Entering env) := by
  refine .bind_except ?_ fun ids => .bind_except ?_ fun _ => trivial
  · refine .clock fun now => .send (.saveMFAChallenge _ _) fun saved => ?_
    split <;> trivial
  · refine .require_then (.clock fun now => .bind_except (liveChallenge_entering _ _) fun challenge => ?_)
    refine .send (.saveMFAChallenge _ _) fun saved => ?_
    split <;> trivial

end IdpServer.Laws.Authn
