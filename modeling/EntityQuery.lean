import EntityQuery.Main
import EntityQuery.Proofs.Independence
import EntityQuery.Proofs.Leaves
import EntityQuery.Proofs.Marks
import EntityQuery.Proofs.Placeholders
import EntityQuery.Proofs.Session
import EntityQuery.Proofs.InStep
import EntityQuery.Proofs.Renumbering
import EntityQuery.Proofs.Shifting
import EntityQuery.Proofs.Domain
import EntityQuery.Proofs.Reading
import EntityQuery.Proofs.Grouping
import EntityQuery.Proofs.Keys
import EntityQuery.Proofs.Composition
import EntityQuery.Proofs.Joining
import EntityQuery.Proofs.Integers
import EntityQuery.Proofs.Rendering
import EntityQuery.Proofs.Agreement
import EntityQuery.Proofs.Negation
import EntityQuery.Proofs.NullTests
import EntityQuery.Proofs.Expansion
import EntityQuery.Proofs.Comparing
import EntityQuery.Proofs.Records
import EntityQuery.Proofs.Restating
import EntityQuery.Proofs.Documents
import EntityQuery.Proofs.CompositeKeys
import EntityQuery.Proofs.Rows
import EntityQuery.Proofs.Columns
import EntityQuery.Proofs.NativeTypes
import EntityQuery.Proofs.Ranges
import EntityQuery.Proofs.Durations
import EntityQuery.Proofs.Offsets
import EntityQuery.Proofs.Moments
import EntityQuery.Proofs.Patterns
import EntityQuery.Proofs.Characters
import EntityQuery.Proofs.Minus
import EntityQuery.Proofs.Paths
import EntityQuery.Proofs.Layers
import EntityQuery.Proofs.Components
import EntityQuery.Proofs.Registrations
