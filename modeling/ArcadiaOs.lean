import ArcadiaOs.Lib.Machine
import ArcadiaOs.Lib.Bitmap
import ArcadiaOs.Lib.Tally
import ArcadiaOs.Lib.Keyed
import ArcadiaOs.Memory.PhysmemCore
import ArcadiaOs.Memory.Physmem
import ArcadiaOs.Memory.Grants
import ArcadiaOs.Memory.FrameSafety
import ArcadiaOs.Memory.FrameCompleteness
import ArcadiaOs.Memory.Accounting
import ArcadiaOs.Memory.FreeAtomicity
import ArcadiaOs.Memory.PhysmemManagerCore
import ArcadiaOs.Memory.BootMap
import ArcadiaOs.Memory.BootAccounting
import ArcadiaOs.Memory.FrameHistory
import ArcadiaOs.Lib.Runs
import ArcadiaOs.Memory.BootFrames
import ArcadiaOs.Memory.Statistics
import ArcadiaOs.Lib.Bytes
import ArcadiaOs.Process.PagingCore
import ArcadiaOs.Process.UserPointer
import ArcadiaOs.Process.Syscall
import ArcadiaOs.Fs.DirEntryCore
import ArcadiaOs.Fs.Fat32Core
import ArcadiaOs.Fs.DirCore
import ArcadiaOs.Fs.VfsCore
import ArcadiaOs.Fs.ReadOnly
import ArcadiaOs.Lib.LinkedTable
import ArcadiaOs.Fs.Cells
import ArcadiaOs.Fs.Volume
import ArcadiaOs.Fs.Allocation
import ArcadiaOs.Fs.FileData
import ArcadiaOs.Fs.DirEntry
import ArcadiaOs.Fs.Directory
import ArcadiaOs.Fs.Ownership
import ArcadiaOs.Fs.PathWalk
import ArcadiaOs.Fs.VolumeCore
import ArcadiaOs.Fs.Refinement
import ArcadiaOs.Fs.Invariant
import ArcadiaOs.Fs.Stability
import ArcadiaOs.Fs.Session
import ArcadiaOs.Fs.ClusterOwnership
import ArcadiaOs.Fs.CellIndependence
import ArcadiaOs.Fs.Descriptor
import ArcadiaOs.Lib.Footprint
import ArcadiaOs.Process.ElfCore
import ArcadiaOs.Process.ParserBounds
import ArcadiaOs.Process.LaunchCore
import ArcadiaOs.Process.Mapper
import ArcadiaOs.Process.AddressSpace
import ArcadiaOs.Process.OffsetPageTable
import ArcadiaOs.Process.LaunchFailure
import ArcadiaOs.Process.Growth
import ArcadiaOs.Process.Loading
import ArcadiaOs.Process.Launched
import ArcadiaOs.Process.EnterUserMode
import ArcadiaOs.Process.Opening
import ArcadiaOs.Process.Placement
import ArcadiaOs.Process.KernelImage
import ArcadiaOs.Process.Lifecycle
import ArcadiaOs.Process.Image
import ArcadiaOs.Process.SharedHalf
import ArcadiaOs.Process.Stages
import ArcadiaOs.Process.ProcessTable
import ArcadiaOs.Process.Stacks
import ArcadiaOs.Process.LoaderFaults
import ArcadiaOs.Process.SlotReuse
import ArcadiaOs.Process.Identity
import ArcadiaOs.Fs.Anywhere
import ArcadiaOs.Fs.Resolution
import ArcadiaOs.Fs.Deletion
import ArcadiaOs.Fs.RelativePaths
import ArcadiaOs.Fs.FileAsDirectory
import ArcadiaOs.Fs.SharedFile
import ArcadiaOs.Fs.UniqueNames
import ArcadiaOs.Fs.LiveEntries
import ArcadiaOs.Fs.Utf8
import ArcadiaOs.Fs.NameLookup
import ArcadiaOs.Fs.DirectoryMap
import ArcadiaOs.Fs.Shrinking
import ArcadiaOs.Fs.ShortName
import ArcadiaOs.Fs.WellFormed
import ArcadiaOs.Fs.Addition
import ArcadiaOs.Fs.MakeDirectory
import ArcadiaOs.Fs.SequentialRead
import ArcadiaOs.Fs.Mount
import ArcadiaOs.Fs.CorruptTable
import ArcadiaOs.Fs.PositionedWrite
import ArcadiaOs.Vmm.TableMapper
import ArcadiaOs.Vmm.MapperAnswers
import ArcadiaOs.Lib.Coverage
import ArcadiaOs.Vmm.Requests
import ArcadiaOs.Vmm.Discovery
import ArcadiaOs.Vmm.Regions
import ArcadiaOs.Vmm.Agreement
import ArcadiaOs.Vmm.PageAccounting
import ArcadiaOs.Vmm.Remapping
import ArcadiaOs.Vmm.RegionUnmapping
import ArcadiaOs.Vmm.Mappings
import ArcadiaOs.Vmm.RegionMapping
import ArcadiaOs.Vmm.IdentityRange
import ArcadiaOs.Vmm.IdentityMap
import ArcadiaOs.Drivers.AtaCore
import ArcadiaOs.Drivers.SectorAddressing
import ArcadiaOs.Lib.Ring
import ArcadiaOs.Terminal.ScancodeQueue
import ArcadiaOs.Tools.AddToFat32
import ArcadiaOs.Tools.ImageVolume
import ArcadiaOs.Tools.Insertion
import ArcadiaOs.Tools.ImageAgreement
import ArcadiaOs.Memory.StartInfo
import ArcadiaOs.Drivers.PciCore
import ArcadiaOs.Drivers.ConfigFields
import ArcadiaOs.Drivers.BusScan
import ArcadiaOs.Fs.NameEncoding
import ArcadiaOs.Drivers.Attempts
import ArcadiaOs.Drivers.SectorTransfers
import ArcadiaOs.Fs.FileReading
import ArcadiaOs.Fs.WholeChain
import ArcadiaOs.Fs.TruncatedFile
import ArcadiaOs.Fs.EmptyFile
import ArcadiaOs.Fs.Lineage
import ArcadiaOs.Fs.TreeResolution
import ArcadiaOs.Fs.Space
import ArcadiaOs.Fs.StoredFile
import ArcadiaOs.Fs.RoundTrip
import ArcadiaOs.Fs.Bystanders
import ArcadiaOs.Fs.FailedCreation
import ArcadiaOs.Fs.DescriptorIsolation
import ArcadiaOs.Terminal.ChangeDirectory
import ArcadiaOs.Memory.Fragmentation
import ArcadiaOs.Fs.ClusterSearch
import ArcadiaOs.Lib.Simulation
import ArcadiaOs.Lib.FileTree
import ArcadiaOs.Fs.TreeView
import ArcadiaOs.Fs.TreePaths
import ArcadiaOs.Fs.Stat
import ArcadiaOs.Fs.TreeEdits
import ArcadiaOs.Fs.TreeCreation
import ArcadiaOs.Fs.TreeReplacement
import ArcadiaOs.Fs.TreeCalls
import ArcadiaOs.Terminal.ShellCore
import ArcadiaOs.Terminal.Words
import ArcadiaOs.Terminal.ShellAnswers
import ArcadiaOs.Terminal.ShellRefinement
import ArcadiaOs.Terminal.WriteThenCat
import ArcadiaOs.Terminal.StrayPaths
import ArcadiaOs.Lib.Layout
import ArcadiaOs.Terminal.VgaBuffer
import ArcadiaOs.Terminal.Screen
import ArcadiaOs.Terminal.ReadLine
import ArcadiaOs.Terminal.TypedLine
import ArcadiaOs.Terminal.TypedRuns
import ArcadiaOs.Terminal.PromptRow
import ArcadiaOs.Terminal.LineHistory
import ArcadiaOs.Process.SyscallEntry
import ArcadiaOs.Drivers.DeviceProbe
import ArcadiaOs.Fs.Mbr
import ArcadiaOs.Tools.GenInit
