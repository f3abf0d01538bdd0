import ManagedLayout.CommandLine.Disk
import ManagedLayout.Main
import ManagedLayout.Proofs.Catalogue.SharedNames
import ManagedLayout.Proofs.Resolution.DepthLimit
import ManagedLayout.Proofs.Resolution.Once
import ManagedLayout.Proofs.Resolution.SourceOrder
import ManagedLayout.Proofs.Catalogue.Composition
import ManagedLayout.Proofs.Agreement.Build
import ManagedLayout.Proofs.Agreement.Handles
import ManagedLayout.Proofs.Agreement.Migration
import ManagedLayout.Proofs.Agreement.Revisions
import ManagedLayout.Proofs.Catalogue.Parents
import ManagedLayout.Proofs.Catalogue.StaticMethods
import ManagedLayout.Proofs.Resolution.IssuedNames
import ManagedLayout.Proofs.Catalogue.Specialization
import ManagedLayout.Proofs.Metadata.Cache
import ManagedLayout.Proofs.Metadata.Dump
import ManagedLayout.Proofs.Document
import ManagedLayout.Proofs.Catalogue.Fields
import ManagedLayout.Proofs.Resolution.Substitution
import ManagedLayout.Proofs.Resolution.WellFormed
import ManagedLayout.Proofs.Resolution.CheckedSpelling
import ManagedLayout.Proofs.Json.Size
import ManagedLayout.Proofs.CommandLine.CachedRuns
import ManagedLayout.Proofs.Reference.TypeLookup
import ManagedLayout.Proofs.Reference.UsageSites
import ManagedLayout.Proofs.Catalogue.VirtualMethods
import ManagedLayout.Proofs.Catalogue.RenderedArguments
import ManagedLayout.Proofs.Resolution.NameOrder
import ManagedLayout.Proofs.Resolution.MadeOrder
import ManagedLayout.Proofs.Catalogue.Invariants
import ManagedLayout.Proofs.Catalogue.NameOrder
import ManagedLayout.Proofs.Reference.ContextRanges
import ManagedLayout.Proofs.Reference.Addresses
import ManagedLayout.Proofs.Text.WrittenVersion
import ManagedLayout.Proofs.Catalogue.Ranges
