import JavaClass.CommandLine.Disk
import JavaClass.Main
import JavaClass.Operation
import JavaClass.Proofs.Encodable
import JavaClass.Proofs.Reading
import JavaClass.Proofs.ReadParts
import JavaClass.Proofs.ReadInstruction
import JavaClass.Proofs.ReadAttribute
import JavaClass.Proofs.ReadClass
import JavaClass.Proofs.RoundTrip
import JavaClass.Proofs.Congruence
import JavaClass.Proofs.Truncation
import JavaClass.Proofs.Lengths
import JavaClass.Proofs.Positions
import JavaClass.Proofs.InstructionRoundTrip
import JavaClass.Proofs.UnknownAttributes
import JavaClass.Proofs.NestingDepth
import JavaClass.Proofs.DeclaredLengths
import JavaClass.Proofs.LimitedRoom
import JavaClass.Proofs.EndOfInput
import JavaClass.Proofs.Relocation
import JavaClass.Proofs.Frame
import JavaClass.Proofs.Aftermath
import JavaClass.Proofs.PoolIndices
import JavaClass.Proofs.PoolSection
import JavaClass.Proofs.DiskView
import JavaClass.Proofs.FileNames
import JavaClass.Proofs.DiskChanges
import JavaClass.Proofs.Execution
import JavaClass.Proofs.Verdict
import JavaClass.Proofs.WholeRun
import JavaClass.Proofs.KeptFiles
import JavaClass.Proofs.FailedWriting
import JavaClass.Proofs.Descriptors
import JavaClass.Proofs.ConstantChains
import JavaClass.Proofs.Listable
import JavaClass.Proofs.FrameRoundTrip
import JavaClass.Proofs.MemberTitles
import JavaClass.Proofs.ConstantCalls
import JavaClass.Proofs.EndlessListings
