import ProRag.Http
import ProRag.Models

/-!
# Groups and memberships

The admin routes that write `groups` and `user_groups`.  They touch local groups alone; those of the
identity provider are written by its login.
-/

namespace ProRag

open Framework

/-- `GroupCreate`, the body of two of the routes. -/
structure GroupCreate where
  name : String
  nonempty : 1 ≤ name.length
  short : name.length ≤ 255

/-- `create_group(body, session)`, with a fresh `uuid4`. -/
def createGroup (fresh : Uuid) (body : GroupCreate) (db : Db) : Except PyError Group × Db :=
  if db.groups.any fun g => g.id = fresh ∨ g.name = body.name then
    (.error ⟨"IntegrityError", "groups_name_key"⟩, db)
  else
    (.ok ⟨fresh, body.name, .local, none⟩, { db with groups := db.groups ++ [⟨fresh, body.name, .local, none⟩] })

/-- `_get_local_group_or_404(session, group_id)`. -/
def getLocalGroup (groupId : Uuid) (db : Db) : Except PyError Group :=
  match selectOne Group.id groupId db.groups with
  | none => .error (httpException 404 "group not found")
  | some group =>
    if group.source ≠ .local then
      .error (httpException 400 "idp-synced groups are managed by the sync, not this endpoint")
    else .ok group

/-- `update_group(group_id, body, session)`. -/
def updateGroup (groupId : Uuid) (body : GroupCreate) (db : Db) : Except PyError Group × Db :=
  match getLocalGroup groupId db with
  | .error exc => (.error exc, db)
  | .ok group =>
    if db.groups.any fun g => g.id ≠ groupId ∧ g.name = body.name then
      (.error ⟨"IntegrityError", "groups_name_key"⟩, db)
    else
      (.ok { group with name := body.name },
        { db with groups := updateWhere (fun g => g.id = groupId) (fun g => { g with name := body.name }) db.groups })

/-- `delete_group(group_id, session)`.  A rule of the group keeps it; its memberships go with it. -/
def deleteGroup (groupId : Uuid) (db : Db) : Except PyError Unit × Db :=
  match getLocalGroup groupId db with
  | .error exc => (.error exc, db)
  | .ok _ =>
    if db.accessRules.any fun r => r.groupId = groupId then
      (.error ⟨"IntegrityError", "access_rules_group_id_fkey"⟩, db)
    else
      (.ok (), { db with
        groups := deleteWhere (fun g => g.id = groupId) db.groups
        userGroups := deleteWhere (fun m => m.groupId = groupId) db.userGroups })

/-- `add_group_member(group_id, user_id, session)`. -/
def addGroupMember (groupId userId : Uuid) (db : Db) : Except PyError Unit × Db :=
  match getLocalGroup groupId db with
  | .error exc => (.error exc, db)
  | .ok _ =>
    match selectOne User.id userId db.users with
    | none => (.error (httpException 404 "user not found"), db)
    | some _ =>
      if (⟨userId, groupId⟩ : UserGroup) ∈ db.userGroups then (.ok (), db)
      else (.ok (), { db with userGroups := db.userGroups ++ [⟨userId, groupId⟩] })

/-- `remove_group_member(group_id, user_id, session)`. -/
def removeGroupMember (groupId userId : Uuid) (db : Db) : Except PyError Unit × Db :=
  match getLocalGroup groupId db with
  | .error exc => (.error exc, db)
  | .ok _ =>
    (.ok (), { db with userGroups := deleteWhere (fun m => m.userId = userId ∧ m.groupId = groupId) db.userGroups })

/-- The requests of the group routes. -/
inductive GroupRequest
  | create (fresh : Uuid) (body : GroupCreate)
  | update (groupId : Uuid) (body : GroupCreate)
  | delete (groupId : Uuid)
  | addMember (groupId userId : Uuid)
  | removeMember (groupId userId : Uuid)

def GroupRequest.run (db : Db) : GroupRequest → Db
  | create fresh body => (createGroup fresh body db).2
  | update groupId body => (updateGroup groupId body db).2
  | delete groupId => (deleteGroup groupId db).2
  | addMember groupId userId => (addGroupMember groupId userId db).2
  | removeMember groupId userId => (removeGroupMember groupId userId db).2

end ProRag
