/-!
The settings of an applet, by the kind of value that they hold. Everything that treats the
settings of a kind alike (merging, overriding, compiling, writing) runs over these types.
-/

namespace ContainerApplets

inductive TextField
  | name
  | image
  | tag
  | entrypoint
  | workDir
  | hostname
  | restart
  | network
  deriving DecidableEq

inductive SwitchField
  | rm
  | interactive
  | tty
  | privileged
  | detach
  | kill
  | pull
  deriving DecidableEq

inductive ListField
  | dns
  | dnsSearch
  | dnsOption
  | environment
  | envFile
  | ports
  | volumes
  | links
  | networks
  deriving DecidableEq

/-- When a hook runs: before the applet or after it. -/
inductive HookSide
  | before
  | after
  deriving DecidableEq

namespace TextField

def all : List TextField :=
  [.name, .image, .tag, .entrypoint, .workDir, .hostname, .restart, .network]

theorem mem_all (field : TextField) : field ∈ all := by cases field <;> decide

/-- The name of the setting in a fragment. -/
def key : TextField → String
  | .name => "name"
  | .image => "image"
  | .tag => "image_tag"
  | .entrypoint => "entrypoint"
  | .workDir => "work_dir"
  | .hostname => "hostname"
  | .restart => "restart"
  | .network => "network"

/-- The name of the setting in the applet itself, where the tag belongs to the applet. -/
def label : TextField → String
  | .tag => "tag"
  | field => field.key

def default : TextField → String
  | .tag => "latest"
  | _ => ""

end TextField

namespace SwitchField

def all : List SwitchField := [.rm, .interactive, .tty, .privileged, .detach, .kill, .pull]

theorem mem_all (field : SwitchField) : field ∈ all := by cases field <;> decide

def key : SwitchField → String
  | .rm => "rm"
  | .interactive => "interactive"
  | .tty => "tty"
  | .privileged => "privileged"
  | .detach => "detach"
  | .kill => "kill"
  | .pull => "pull"

def default : SwitchField → Bool
  | .rm | .interactive | .tty => true
  | _ => false

end SwitchField

namespace ListField

def all : List ListField :=
  [.dns, .dnsSearch, .dnsOption, .environment, .envFile, .ports, .volumes, .links, .networks]

theorem mem_all (field : ListField) : field ∈ all := by cases field <;> decide

def key : ListField → String
  | .dns => "dns"
  | .dnsSearch => "dns_search"
  | .dnsOption => "dns_option"
  | .environment => "environment"
  | .envFile => "env_file"
  | .ports => "ports"
  | .volumes => "volumes"
  | .links => "links"
  | .networks => "networks"

end ListField

namespace HookSide

def all : List HookSide := [.before, .after]

theorem mem_all (side : HookSide) : side ∈ all := by cases side <;> decide

def key : HookSide → String
  | .before => "before_hooks"
  | .after => "after_hooks"

/-- How a message speaks of a hook. -/
def label : HookSide → String
  | .before => "before hook"
  | .after => "after hook"

end HookSide

section Settings

variable {Value : Type} [DecidableEq Value]

/-- Two assignments of values to settings are compared setting by setting. -/
def sameOn {Field : Type} (all : List Field) (complete : ∀ field, field ∈ all)
    (left right : Field → Value) : Decidable (left = right) :=
  decidable_of_iff (∀ field ∈ all, left field = right field)
    ⟨fun same => funext fun field => same field (complete field), fun same _ _ => same ▸ rfl⟩

instance : DecidableEq (TextField → Value) := sameOn TextField.all TextField.mem_all
instance : DecidableEq (SwitchField → Value) := sameOn SwitchField.all SwitchField.mem_all
instance : DecidableEq (ListField → Value) := sameOn ListField.all ListField.mem_all
instance : DecidableEq (HookSide → Value) := sameOn HookSide.all HookSide.mem_all

end Settings

end ContainerApplets
