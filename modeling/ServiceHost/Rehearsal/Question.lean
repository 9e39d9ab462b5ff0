import ServiceHost.Rehearsal.View

/-!
# Questions — to settings and to a vault

A question to settings is asked below a path, and answered with what a getter gives; a request to
a vault may change it.
-/

set_option autoImplicit false

namespace ServiceHost

inductive Getter where
  | text (key : String)
  | textOr (key default : String)
  | integer (kind : Settings.IntegerKind) (key : String)
  | integerOr (kind : Settings.IntegerKind) (key : String) (default : Int)
  | flagOr (key : String) (default : Bool)
  | has (key : String)
  | groups
  | limits
  | view

def Getter.answer (settings : Settings) : Getter → Answer
  | .text key => .ofExcept .settings .string (settings.text key)
  | .textOr key default => .shown (.string (settings.textOr key default))
  | .integer kind key => .ofExcept .settings View.decimal (settings.integer kind key)
  | .integerOr kind key default =>
    .ofExcept .settings View.decimal (settings.integerOr kind key default)
  | .flagOr key default => .ofExcept .settings .bool (settings.flagOr key default)
  | .has key => .shown (.bool (settings.has key))
  | .groups => .shown (.array (settings.groups.map View.settings))
  | .limits => .ofExcept .settings View.limits (Limits.ofSettings settings)
  | .view => .shown (View.settings settings)

structure SettingsQuestion where
  /-- The paths that lead to the root from which the settings are seen, one below the other. -/
  roots : List String := []
  getter : Getter

/-- What settings answer below the path of a question. -/
def SettingsQuestion.answer (question : SettingsQuestion) (settings : Settings) : Answer :=
  question.getter.answer (question.roots.foldl Settings.under settings)

inductive VaultRequest where
  | store (key value : String)
  | delete (key : String)
  | resolve (key : String)

/-- The vault that a change leads to, or the vault as it was where the change is refused. -/
def Vault.changed (vault : Vault) : Except VaultError Vault → Answer × Vault
  | .ok changed => (.granted, changed)
  | .error error => (.refused (.vault error), vault)

/-- The answer of a vault, and the vault after it. -/
def VaultRequest.answer (vault : Vault) : VaultRequest → Answer × Vault
  | .store key value => vault.changed (vault.store key value)
  | .delete key => vault.changed (vault.delete key)
  | .resolve key => (.shown (View.text? (vault.resolve? key)), vault)

/-- Makes a request to a shared vault. -/
def VaultRequest.act (request : VaultRequest) (ticket : Ticket Vault) : Effect Answer := do
  let (answer, vault) := request.answer (← Effect.vault ticket)
  Effect.setVault ticket vault
  return answer

end ServiceHost
