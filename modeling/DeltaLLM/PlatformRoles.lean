/-! # Roles and permissions

Roles are texts in the tables. A text that names no role has no permissions.
-/
namespace PlatformRoles

inductive Permission where
  | platformAdmin
  | orgRead
  | orgUpdate
  | teamRead
  | teamUpdate
  | userRead
  | userUpdate
  | keyRead
  | keyUpdate
  | keyRevoke
  | keyCreateSelf
  | spendRead
  | auditRead
  | configRead
  | configUpdate
  deriving DecidableEq, Repr

/-- `LEGACY_PLATFORM_ROLE_ALIASES`. -/
def canonicalRole : String → String
  | "platform_co_admin" => "platform_admin"
  | role => role

/-- `PLATFORM_ROLE_PERMISSIONS`. -/
def platformRolePermissions : String → List Permission
  | "platform_admin" => [.platformAdmin]
  | _ => []

/-- `has_platform_permission`. -/
def hasPlatformPermission (role : String) (permission : Permission) : Bool :=
  permission ∈ platformRolePermissions (canonicalRole role)

/-- `ORG_ROLE_PERMISSIONS`. -/
def orgRolePermissions : String → List Permission
  | "org_member" => [.orgRead, .teamRead]
  | "org_owner" =>
      [.orgRead, .orgUpdate, .spendRead, .auditRead, .teamRead, .teamUpdate, .keyRead, .keyUpdate,
        .keyRevoke, .keyCreateSelf, .userRead, .userUpdate]
  | "org_admin" =>
      [.orgRead, .orgUpdate, .teamRead, .teamUpdate, .keyRead, .keyUpdate, .keyRevoke,
        .keyCreateSelf, .userRead, .userUpdate, .auditRead]
  | "org_billing" => [.orgRead, .spendRead, .teamRead, .keyRead]
  | "org_auditor" => [.orgRead, .spendRead, .teamRead, .keyRead, .userRead, .auditRead]
  | _ => []

/-- `TEAM_ROLE_PERMISSIONS`. -/
def teamRolePermissions : String → List Permission
  | "team_admin" =>
      [.teamRead, .teamUpdate, .userRead, .userUpdate, .keyRead, .keyUpdate, .keyRevoke,
        .keyCreateSelf]
  | "team_developer" => [.teamRead, .userRead, .keyRead, .keyCreateSelf]
  | "team_viewer" => [.teamRead]
  | _ => []

def organizationRoles : List String :=
  ["org_member", "org_owner", "org_admin", "org_billing", "org_auditor"]

def teamRoles : List String := ["team_admin", "team_developer", "team_viewer"]

end PlatformRoles
