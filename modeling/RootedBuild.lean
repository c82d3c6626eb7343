import RootedBuild.Main
import RootedBuild.Proofs.Build.Accounting
import RootedBuild.Proofs.Build.Finishing
import RootedBuild.Proofs.Build.Leniency
import RootedBuild.Proofs.Build.Reporting
import RootedBuild.Proofs.Build.SharedDescriptor
import RootedBuild.Proofs.Cache.Losses
import RootedBuild.Proofs.CommandLine.Agreement
import RootedBuild.Proofs.Descriptor.Circularity
import RootedBuild.Proofs.Descriptor.Faults
import RootedBuild.Proofs.Descriptor.Lines
import RootedBuild.Proofs.Descriptor.Malformed
import RootedBuild.Proofs.Descriptor.Mappings
import RootedBuild.Proofs.Descriptor.Quoting
import RootedBuild.Proofs.Diagnostic.Contexts
import RootedBuild.Proofs.Diagnostic.Nesting
import RootedBuild.Proofs.Ownership.Containment
import RootedBuild.Proofs.Ownership.Layers
import RootedBuild.Proofs.Ownership.Nearest
import RootedBuild.Proofs.Path.Relative
import RootedBuild.Proofs.Service.Alignment
import RootedBuild.Proofs.Service.Transcript
import RootedBuild.Sample
