import ContainerApplets.Catalog
import ContainerApplets.Text.Blank
import ContainerApplets.Text.Quoted
import ContainerApplets.Text.Template
import ContainerApplets.Text.Visible
import ContainerApplets.Number.Binary64
import ContainerApplets.Number.Written
import ContainerApplets.Yaml.Document
import ContainerApplets.Yaml.Stored
import ContainerApplets.Yaml.Typed
import ContainerApplets.Yaml.Written
import ContainerApplets.JsonValue
import ContainerApplets.Shell
import ContainerApplets.Applet.Basic
import ContainerApplets.Applet.Listing
import ContainerApplets.Fragment.Decode
import ContainerApplets.Fragment.Encode
import ContainerApplets.Merge
import ContainerApplets.HookWalk
import ContainerApplets.RunLine
import ContainerApplets.Plan
import ContainerApplets.Overrides.Parse
import ContainerApplets.Invocation
import ContainerApplets.Execution
import ContainerApplets.Files.Calls
import ContainerApplets.Discovery
import ContainerApplets.Settings
import ContainerApplets.Links
import ContainerApplets.Registry
import ContainerApplets.Cache
import ContainerApplets.Session
import ContainerApplets.Schema
import ContainerApplets.Report
import ContainerApplets.CommandLine.Request
import ContainerApplets.Program.Launch
import ContainerApplets.Main
import ContainerApplets.Proofs.Hooks.Run
import ContainerApplets.Proofs.Hooks.Unfolding
import ContainerApplets.Proofs.Hooks.Offence
import ContainerApplets.Proofs.Hooks.Graph
import ContainerApplets.Proofs.Hooks.FirstOffence
import ContainerApplets.Proofs.Merge.Agreement
import ContainerApplets.Proofs.Merge.Gathering
import ContainerApplets.Proofs.Merge.Drafts
import ContainerApplets.Proofs.Merge.Union
import ContainerApplets.Proofs.Merge.Unification
import ContainerApplets.Proofs.Invocation
import ContainerApplets.Proofs.Forms
import ContainerApplets.Proofs.Fragment.Rewording
import ContainerApplets.Proofs.OpenPlan
import ContainerApplets.Proofs.RunReading
import ContainerApplets.Proofs.Hooks.Transfer
import ContainerApplets.Proofs.Merge.Reordering
import ContainerApplets.Proofs.Merge.Repetition
import ContainerApplets.Proofs.Merge.Attribution
import ContainerApplets.Proofs.Resources
import ContainerApplets.Proofs.Merge.Independence
import ContainerApplets.Proofs.Fragment.Written
import ContainerApplets.Proofs.Fragment.ClosedSchema
import ContainerApplets.Proofs.OverrideReading
import ContainerApplets.Proofs.Merge.Overriding
import ContainerApplets.Proofs.Template.Grammar
import ContainerApplets.Proofs.Sources.Runs
import ContainerApplets.Proofs.Links.Installing
import ContainerApplets.Proofs.MountedVolumes
import ContainerApplets.Proofs.Execution
import ContainerApplets.Proofs.OverrideComposition
import ContainerApplets.Proofs.ShellReading
import ContainerApplets.Proofs.ShellPasting
import ContainerApplets.Proofs.Links.Runs
import ContainerApplets.Proofs.Links.Dispatch
import ContainerApplets.Proofs.Sources.Stages
import ContainerApplets.Proofs.Discovery
import ContainerApplets.Proofs.DiscoveredOnce
import ContainerApplets.Proofs.UnsetVariables
import ContainerApplets.Proofs.Template.Escaping
import ContainerApplets.Proofs.Template.Defaults
import ContainerApplets.Proofs.Template.Trees
import ContainerApplets.Proofs.Links.Calls
